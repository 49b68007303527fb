import SignalDesk.Proofs.Engine
import SignalDesk.Proofs.Record

/-!
# Runs of the engine

An engine is given messages and asked to clear halts. Each command that is not given up is one step:
a message is dropped or a record is worked on at the desk of its instrument. A run is a sequence of
steps, and what every step preserves holds after every run.
-/

namespace SignalDesk

namespace Engine

open Act

inductive Command where
  | message (text : String)
  | clearHalt

def Command.record? : Command → Option Record
  | message text => (Record.parse text).toOption
  | clearHalt => none

theorem Command.record?_message {text : String} {record : Record} :
    (message text).record? = some record ↔ Record.parse text = .ok record := by
  cases hparse : Record.parse text <;> simp [record?, hparse, Except.toOption]

def handle : Command → Act Engine (Option Evaluation)
  | .message text => processMessage text
  | .clearHalt => do
    clearHalt
    return none

def handleAll : List Command → Act Engine (List Evaluation)
  | [] => pure []
  | command :: commands => do
    let evaluation ← handle command
    let evaluations ← handleAll commands
    return evaluation.toList ++ evaluations

private theorem openDesk_cases {engine engine' : Engine} {instrument : String} {desk : Desk}
    (h : (openDesk instrument).Yields engine desk engine') :
    engine.deskFor instrument = .ok desk ∧ ∃ desks, engine' = { engine with desks } ∧
      ∀ other, desks.put instrument other = engine.desks.put instrument other := by
  cases hdesk : engine.deskFor instrument with
  | ok found =>
    obtain ⟨desks, ⟨hout, hstate⟩, hput⟩ := openDesk_yields hdesk
    obtain ⟨hout', rfl⟩ := h
    rw [hout] at hout'
    exact ⟨hout', desks, hstate, hput⟩
  | error abort =>
    unfold deskFor at hdesk
    simp only [openDesk, yields_bind_iff, yields_get_iff] at h
    obtain ⟨_, _, ⟨rfl, rfl⟩, h⟩ := h
    split at hdesk
    · cases hdesk
    · rename_i hnone
      simp only [hnone, yields_bind_iff, yields_notify_iff, yields_lift_iff] at h
      obtain ⟨_, _, rfl, _, _, ⟨hok, -⟩, -⟩ := h
      rw [hdesk] at hok
      cases hok

/-- What a command does to an engine if it is not given up. -/
inductive Step (engine : Engine) : Command → Option Evaluation → Engine → Prop
  | dropped {text : String} (hnone : (Command.message text).record? = none) :
      Step engine (.message text) none engine
  | worked {text : String} {record : Record} {desk desk' : Desk} {evaluation : Evaluation}
      {account : Account} (hrecord : (Command.message text).record? = some record)
      (hdesk : engine.deskFor record.instrument = .ok desk)
      (hworked : Desk.Worked engine.composer record desk engine.account evaluation desk' account) :
      Step engine (.message text) (some evaluation)
        (engine.withDesk record.instrument desk' account)
  | cleared {account : Account} (hclear : Account.clearHalt.Yields engine.account () account) :
      Step engine .clearHalt none { engine with account }

variable {engine engine' : Engine} {command : Command} {evaluation? : Option Evaluation}

/-- An invalid record is dropped; for a valid one the desk carries out its plan. -/
theorem process_plan {record : Record} (h : (process record).Yields engine evaluation? engine') :
    (record.isValid = false ∧ evaluation? = none ∧ engine' = engine) ∨
      record.isValid = true ∧ ∃ desk evaluation desk' account, evaluation? = some evaluation ∧
        engine.deskFor record.instrument = .ok desk ∧
        (desk.recordPlan engine.composer record).run.Yields (desk, engine.account) evaluation
          (desk', account) ∧
        engine' = engine.withDesk record.instrument desk' account := by
  rw [process, yields_bind_iff] at h
  obtain ⟨_, _, hnotify, h⟩ := h
  obtain rfl := yields_notify_iff.1 hnotify
  split at h
  · rename_i hvalid
    simp only [yields_bind_iff, yields_get_iff, yields_focus_iff, yields_pure_iff] at h
    obtain ⟨desk, _, hopen, _, _, ⟨rfl, rfl⟩, evaluation, _, ⟨⟨desk', account⟩, hrun, rfl⟩, rfl, rfl⟩ := h
    obtain ⟨hdesk, desks, rfl, hput⟩ := openDesk_cases hopen
    refine .inr ⟨hvalid, desk, evaluation, desk', account, rfl, hdesk, hrun, ?_⟩
    rw [withDesk, ← hput]
  · rename_i hinvalid
    obtain ⟨rfl, rfl⟩ := yields_pure_iff.1 h
    exact .inl ⟨by simpa using hinvalid, rfl, rfl⟩

theorem process_cases {record : Record} (h : (process record).Yields engine evaluation? engine') :
    (record.isValid = false ∧ evaluation? = none ∧ engine' = engine) ∨
      record.isValid = true ∧ ∃ desk evaluation desk' account, evaluation? = some evaluation ∧
        engine.deskFor record.instrument = .ok desk ∧
        Desk.Worked engine.composer record desk engine.account evaluation desk' account ∧
        engine' = engine.withDesk record.instrument desk' account := by
  rcases process_plan h with hdropped |
    ⟨hvalid, desk, evaluation, desk', account, hevaluation, hdesk, hplan, hengine⟩
  · exact .inl hdropped
  · exact .inr ⟨hvalid, desk, evaluation, desk', account, hevaluation, hdesk,
      Desk.recordPlan_worked hplan, hengine⟩

theorem handle_step (h : (handle command).Yields engine evaluation? engine') :
    Step engine command evaluation? engine' := by
  cases command with
  | message text =>
    rw [handle, processMessage] at h
    cases hdecode : Record.decode? text with
    | none =>
      rw [hdecode] at h
      simp only [yields_bind_iff, yields_notify_iff, yields_pure_iff] at h
      obtain ⟨_, _, rfl, rfl, rfl⟩ := h
      refine .dropped ?_
      rw [Command.record?, Record.parse, hdecode]
      rfl
    | some record =>
      rw [hdecode] at h
      have hparse (hvalid : record.isValid = true) : Record.parse text = .ok record :=
        Record.parse_ok_iff.2 ⟨hdecode, hvalid⟩
      rcases process_cases h with ⟨hinvalid, rfl, rfl⟩ |
        ⟨hvalid, desk, evaluation, desk', account, rfl, hdesk, hworked, rfl⟩
      · refine .dropped ?_
        rw [← Option.not_isSome_iff_eq_none, Option.isSome_iff_exists]
        rintro ⟨other, hother⟩
        obtain ⟨hsame, hvalid⟩ := Record.parse_ok_iff.1 (Command.record?_message.1 hother)
        rw [hdecode, Option.some.injEq] at hsame
        rw [hsame, hvalid] at hinvalid
        cases hinvalid
      · exact .worked (Command.record?_message.2 (hparse hvalid)) hdesk hworked
  | clearHalt =>
    rw [handle] at h
    simp only [yields_bind_iff, yields_pure_iff, Engine.clearHalt, yields_focus_iff] at h
    obtain ⟨_, _, ⟨account, hclear, rfl⟩, rfl, rfl⟩ := h
    exact .cleared hclear

inductive Run (start : Engine) : List Command → List Evaluation → Engine → Prop
  | nil : Run start [] [] start
  | snoc {commands : List Command} {evaluations : List Evaluation} {engine engine' : Engine}
      {command : Command} {evaluation? : Option Evaluation}
      (hrun : Run start commands evaluations engine) (hstep : Step engine command evaluation? engine') :
      Run start (commands ++ [command]) (evaluations ++ evaluation?.toList) engine'

theorem Run.append {start : Engine} {before commands : List Command}
    {earlier evaluations : List Evaluation} (hrun : Run start before earlier engine)
    (h : (handleAll commands).Yields engine evaluations engine') :
    Run start (before ++ commands) (earlier ++ evaluations) engine' := by
  induction commands generalizing before earlier evaluations engine with
  | nil =>
    obtain ⟨rfl, rfl⟩ := yields_pure_iff.1 h
    rwa [List.append_nil, List.append_nil]
  | cons command commands ih =>
    simp only [handleAll, yields_bind_iff, yields_pure_iff] at h
    obtain ⟨evaluation?, engine₁, hhandle, rest, _, hrest, rfl, rfl⟩ := h
    have hall := ih (hrun.snoc (handle_step hhandle)) hrest
    rwa [List.append_assoc, List.append_assoc, List.singleton_append] at hall

theorem handleAll_run {commands : List Command} {evaluations : List Evaluation}
    (h : (handleAll commands).Yields engine evaluations engine') :
    Run engine commands evaluations engine' :=
  Run.nil.append h

end Engine

end SignalDesk
