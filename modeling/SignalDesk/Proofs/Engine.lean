import SignalDesk.Engine.Engine
import SignalDesk.Proofs.Desk

/-!
# The engine, one record after the other

A valid record is processed by the desk of its instrument, which is a new one for the first record,
and no other desk takes notice.
-/

namespace SignalDesk

theorem Desk.ofConfig_instrument {composer : Composer} {config : Config} {instrument : String}
    {desk : Desk} (h : Desk.ofConfig composer config instrument = .ok desk) :
    desk.tape.instrument = instrument := by
  simp only [Desk.ofConfig, bind_ok_iff, pure_ok_iff] at h
  obtain ⟨_, -, _, -, _, -, rfl⟩ := h
  rfl

namespace Engine

open Act

def deskFor (engine : Engine) (instrument : String) : Except Abort Desk :=
  match engine.desk? instrument with
  | some desk => .ok desk
  | none => Desk.ofConfig engine.composer engine.config instrument

theorem deskFor_cases {engine : Engine} {instrument : String} {desk : Desk}
    (h : engine.deskFor instrument = .ok desk) :
    engine.desk? instrument = some desk ∨ engine.desk? instrument = none ∧
      Desk.ofConfig engine.composer engine.config instrument = .ok desk := by
  unfold deskFor at h
  split at h
  · rename_i old hold
    exact .inl (by rw [hold, Except.ok.inj h])
  · rename_i hnone
    exact .inr ⟨hnone, h⟩

def Labelled (engine : Engine) : Prop :=
  ∀ instrument desk, engine.deskFor instrument = .ok desk → desk.tape.instrument = instrument

def withDesk (engine : Engine) (instrument : String) (desk : Desk) (account : Account) : Engine :=
  { engine with account, desks := engine.desks.put instrument desk }

@[simp] theorem withDesk_desk?_self (engine : Engine) (instrument : String) (desk : Desk)
    (account : Account) : (engine.withDesk instrument desk account).desk? instrument = some desk :=
  Roster.lookup_put_self _ _ _

theorem withDesk_desk?_of_ne {instrument name : String} (h : name ≠ instrument) (engine : Engine)
    (desk : Desk) (account : Account) :
    (engine.withDesk instrument desk account).desk? name = engine.desk? name :=
  Roster.lookup_put_of_ne h _ _

@[simp] theorem withDesk_deskFor_self (engine : Engine) (instrument : String) (desk : Desk)
    (account : Account) : (engine.withDesk instrument desk account).deskFor instrument = .ok desk := by
  rw [deskFor, withDesk_desk?_self]

theorem withDesk_deskFor_of_ne {instrument name : String} (h : name ≠ instrument) (engine : Engine)
    (desk : Desk) (account : Account) :
    (engine.withDesk instrument desk account).deskFor name = engine.deskFor name := by
  rw [deskFor, withDesk_desk?_of_ne h]
  rfl

/-- What holds of the desk of every instrument still does with a desk put in of which it holds. -/
theorem withDesk_forall {engine : Engine} {holds : String → Desk → Prop}
    (h : ∀ name other, engine.deskFor name = .ok other → holds name other) {instrument : String}
    {desk : Desk} (hdesk : holds instrument desk) (account : Account) :
    ∀ name other, (engine.withDesk instrument desk account).deskFor name = .ok other →
      holds name other := by
  intro name other hother
  by_cases hname : name = instrument
  · subst hname
    rw [withDesk_deskFor_self] at hother
    rwa [← Except.ok.inj hother]
  · rw [withDesk_deskFor_of_ne hname] at hother
    exact h name other hother

theorem Labelled.withDesk {engine : Engine} (h : engine.Labelled) {instrument : String}
    {desk : Desk} (hdesk : desk.tape.instrument = instrument) (account : Account) :
    (engine.withDesk instrument desk account).Labelled :=
  withDesk_forall h hdesk account

theorem openDesk_yields {engine : Engine} {instrument : String} {desk : Desk}
    (h : engine.deskFor instrument = .ok desk) :
    ∃ desks, (openDesk instrument).Yields engine desk { engine with desks } ∧
      ∀ other, desks.put instrument other = engine.desks.put instrument other := by
  unfold deskFor at h
  unfold openDesk
  cases hdesk : engine.desk? instrument with
  | some old =>
    rw [hdesk] at h
    refine ⟨engine.desks, ?_, fun _ => rfl⟩
    rw [yields_bind_iff]
    refine ⟨engine, engine, yields_get_iff.2 ⟨rfl, rfl⟩, ?_⟩
    rw [hdesk, ← Except.ok.inj h]
    exact yields_pure_iff.2 ⟨rfl, rfl⟩
  | none =>
    rw [hdesk] at h
    refine ⟨engine.desks.put instrument desk, ?_, fun other => Roster.put_put _ _ _ _⟩
    rw [yields_bind_iff]
    refine ⟨engine, engine, yields_get_iff.2 ⟨rfl, rfl⟩, ?_⟩
    simp only [hdesk, yields_bind_iff, yields_notify_iff, yields_lift_iff, yields_set_iff,
      yields_pure_iff]
    exact ⟨(), engine, rfl, desk, engine, ⟨h, rfl⟩, (), _, rfl, rfl, rfl⟩

theorem process_yields {engine : Engine} {record : Record} {desk desk' : Desk} {account : Account}
    {evaluation : Evaluation} (hvalid : record.isValid = true)
    (hdesk : engine.deskFor record.instrument = .ok desk)
    (hplan : (desk.recordPlan engine.composer record).run.Yields (desk, engine.account) evaluation
      (desk', account)) :
    (process record).Yields engine (some evaluation)
      (engine.withDesk record.instrument desk' account) := by
  obtain ⟨desks, hopen, hput⟩ := openDesk_yields hdesk
  rw [process, if_pos hvalid]
  simp only [yields_bind_iff, yields_notify_iff, yields_get_iff, yields_focus_iff, yields_pure_iff]
  refine ⟨(), engine, rfl, desk, { engine with desks }, hopen, _, _, ⟨rfl, rfl⟩, evaluation, _,
    ⟨(desk', account), hplan, rfl⟩, rfl, ?_⟩
  rw [withDesk, hput]

/-- Records one after the other, with the evaluations they lead to. -/
def processAll : List Record → Act Engine (List Evaluation)
  | [] => pure []
  | record :: records => do
    let evaluation ← process record
    let evaluations ← processAll records
    return evaluation.toList ++ evaluations

theorem processAll_concat {records : List Record} {record : Record} {e e₁ e₂ : Engine}
    {evaluations : List Evaluation} {evaluation : Evaluation}
    (h : (processAll records).Yields e evaluations e₁)
    (hlast : (process record).Yields e₁ (some evaluation) e₂) :
    (processAll (records ++ [record])).Yields e (evaluations ++ [evaluation]) e₂ := by
  induction records generalizing e evaluations with
  | nil =>
    obtain ⟨rfl, rfl⟩ := yields_pure_iff.1 h
    simp only [List.nil_append, processAll, yields_bind_iff, yields_pure_iff]
    exact ⟨_, _, hlast, _, _, ⟨rfl, rfl⟩, rfl, rfl⟩
  | cons first records ih =>
    simp only [List.cons_append, processAll, yields_bind_iff, yields_pure_iff] at h ⊢
    obtain ⟨one, r, hfirst, rest, _, hrest, rfl, rfl⟩ := h
    exact ⟨one, r, hfirst, _, _, ih hrest, by rw [List.append_assoc], rfl⟩

end Engine

end SignalDesk
