import SignalDesk.Proofs.Config
import SignalDesk.Proofs.Engine.Run
import SignalDesk.Proofs.Position

/-!
# Sound engines

Every desk of an engine keeps valid records and trades by the settings of the engine: a position that
it holds has the one trade size and was bought for one to ninety-nine cents. What a desk marks a
position at is then a price in cents.
-/

namespace SignalDesk

namespace Roster

variable {α : Type}

theorem exists_mem_of_lookup {roster : Roster α} {instrument : String} {value : α}
    (h : roster.lookup instrument = some value) : ∃ name, (name, value) ∈ roster := by
  obtain ⟨before, after, rfl, -⟩ := List.lookup_eq_some_iff.1 h
  exact ⟨instrument, by simp⟩

private theorem forall_put {roster : Roster α} {holds : α → Prop}
    (h : ∀ entry ∈ roster, holds entry.2) (instrument : String) {value : α} (hvalue : holds value) :
    ∀ entry ∈ roster.put instrument value, holds entry.2 := by
  induction roster with
  | nil => simpa [put] using hvalue
  | cons entry roster ih =>
    obtain ⟨hfirst, hrest⟩ := List.forall_mem_cons.1 h
    rw [put]
    split
    · exact List.forall_mem_cons.2 ⟨hvalue, hrest⟩
    · exact List.forall_mem_cons.2 ⟨hfirst, ih hrest⟩

theorem countP_put (roster : Roster α) (instrument : String) (value : α) (p : α → Bool) :
    (roster.put instrument value).countP (fun entry => p entry.2) +
        ((roster.lookup instrument).any p).toNat =
      roster.countP (fun entry => p entry.2) + (p value).toNat := by
  induction roster with
  | nil => cases h : p value <;> simp [put, h]
  | cons entry roster ih =>
    rw [put, List.lookup_cons]
    by_cases hname : entry.1 = instrument
    · have hbeq : (instrument == entry.1) = true := beq_iff_eq.2 hname.symm
      rw [if_pos (beq_iff_eq.2 hname), hbeq]
      cases hold : p entry.2 <;> cases hnew : p value <;> simp [hold, hnew]
    · have hbeq : (instrument == entry.1) = false := beq_eq_false_iff_ne.2 (Ne.symm hname)
      rw [if_neg (by simpa using hname), hbeq, List.countP_cons, List.countP_cons]
      simp only at ih ⊢
      omega

end Roster

namespace Position

private theorem openAt_opened {id : Uuid} {instrument : String} {side : Side} {entryPrice : Int64}
    {ts : Timestamp} {size : Decimal} {position : Position}
    (hprice : 0 < entryPrice ∧ entryPrice < 100)
    (h : openAt id instrument side entryPrice ts size = .ok position) :
    position.size = size ∧ position.Opened := by
  simp only [openAt, bind_ok_iff, pure_ok_iff] at h
  obtain ⟨contracts, hcontracts, rfl⟩ := h
  rw [Int64.lt_iff_toInt_lt, Int64.lt_iff_toInt_lt] at hprice
  exact ⟨rfl, hprice, hcontracts⟩

end Position

namespace Trader

/-- A trader with the settings of a configuration and a position of its trade size, if any. -/
structure Sound (config : Config) (trader : Trader) : Prop where
  settings : trader.settings = config.positions
  tradeSize : trader.tradeSize = config.portfolio.tradeSize
  held : ∀ position ∈ trader.held, position.size = config.portfolio.tradeSize ∧ position.Opened

variable {config : Config} {trader trader' : Trader} {account account' : Account}
  {quote : Option Quote} {ts : Timestamp} {event : Option PositionEvent}

theorem Turn.sound (h : Turn trader account quote ts event trader' account')
    (hsound : trader.Sound config) : trader'.Sound config := by
  cases h with
  | idle => exact hsound
  | opened hfree hbook hprice hopened hreserve =>
    refine ⟨hsound.settings, hsound.tradeSize, fun position hposition => ?_⟩
    cases hposition
    rw [← hsound.tradeSize]
    exact Position.openAt_opened hprice hopened
  | closed => exact ⟨hsound.settings, hsound.tradeSize, by simp⟩

theorem Sound.exitPlan_keeps (hsound : trader.Sound config) (quote : Option Quote) (ts : Timestamp) :
    (exitPlan quote ts trader).Keeps (Sound config) :=
  Trader.exitPlan_keeps hsound ⟨hsound.settings, hsound.tradeSize, by simp⟩ quote ts

theorem Sound.entryPlan_keeps (hsound : trader.Sound config) (composite : Composite)
    (quote : Option Quote) : (entryPlan composite quote trader).Keeps (Sound config) := by
  refine Trader.entryPlan_keeps hsound ⟨hsound.settings, hsound.tradeSize, hsound.held⟩ ?_
  refine fun book side position hprice hopen => ⟨hsound.settings, hsound.tradeSize, ?_⟩
  intro held hheld
  cases hheld
  rw [← hsound.tradeSize]
  exact Position.openAt_opened hprice hopen

theorem Sound.isCents_mark (hsound : trader.Sound config) {held : Position}
    (hheld : trader.held = some held)
    (hquote : ∀ book ∈ quote, (Record.quote book).isValid = true) :
    isCents ((quote.map fun book => book.bidFor held.side).getD held.entryPrice) = true := by
  cases quote with
  | none =>
    obtain ⟨hlow, hhigh⟩ := (hsound.held held hheld).2.entryPrice
    rw [Option.map_none, Option.getD_none, isCents_iff]
    exact ⟨hlow.le, hhigh.le⟩
  | some book =>
    rw [Option.map_some, Option.getD_some]
    exact Quote.isCents_bidFor (hquote book rfl) held.side

end Trader

namespace Desk

/-- A desk with valid records and a sound trader. -/
structure Sound (config : Config) (desk : Desk) : Prop where
  valid : ∀ record ∈ desk.tape.records, record.isValid = true
  trader : desk.trader.Sound config

def isHolding (desk : Desk) : Bool := desk.trader.held.isSome

variable {composer : Composer} {config : Config} {desk desk' : Desk}

theorem ofConfig_sound {instrument : String} (h : Desk.ofConfig composer config instrument = .ok desk) :
    desk.Sound config ∧ desk.isHolding = false := by
  simp only [Desk.ofConfig, bind_ok_iff, pure_ok_iff] at h
  obtain ⟨_, -, _, -, _, -, rfl⟩ := h
  exact ⟨⟨by simp [Tape.empty], rfl, rfl, by simp [Trader.idle]⟩, rfl⟩

theorem Worked.sound {record : Record} {account account' : Account} {evaluation : Evaluation}
    (h : Worked composer record desk account evaluation desk' account')
    (hrecord : record.isValid = true) (hsound : desk.Sound config) : desk'.Sound config := by
  obtain ⟨event, -, hturn⟩ := h.turn
  refine ⟨?_, hturn.sound hsound.trader⟩
  rw [h.tape]
  exact Tape.update_valid hrecord hsound.valid

/-- A record leaves a sound desk, also where the work on it is given up. -/
theorem Sound.onRecord {record : Record} (hsound : desk.Sound config)
    (hrecord : record.isValid = true) (composer : Composer) (account : Account) :
    (onRecord composer record (desk, account)).state.1.Sound config := by
  have hkeeps : (recordPlan composer record desk).Keeps (Sound config) :=
    recordPlan_keeps (fun _ _ hd ht => ⟨hd.valid, ht⟩) (fun _ => Sound.trader)
      (fun quote ts _ ht => ht.exitPlan_keeps quote ts)
      (fun composite quote _ ht => ht.entryPlan_keeps composite quote) composer record
      ⟨Tape.update_valid hrecord hsound.valid, hsound.trader⟩
  exact hkeeps.run desk account

end Desk

namespace Engine

/-- An engine of a configuration with sound desks. -/
structure Sound (config : Config) (engine : Engine) : Prop where
  sameConfig : engine.config = config
  sameComposer : engine.composer = .ofConfig config
  desks : ∀ entry ∈ engine.desks, entry.2.Sound config

variable {config : Config} {engine engine' : Engine}

theorem ofConfig_sound (h : ofConfig config = .ok engine) : engine.Sound config := by
  simp only [ofConfig, bind_ok_iff, pure_ok_iff] at h
  obtain ⟨account, -, rfl⟩ := h
  exact ⟨rfl, rfl, by simp⟩

theorem Sound.deskFor (h : engine.Sound config) {instrument : String} {desk : Desk}
    (hdesk : engine.deskFor instrument = .ok desk) : desk.Sound config := by
  rcases deskFor_cases hdesk with hlookup | ⟨-, hopen⟩
  · obtain ⟨name, hmem⟩ := Roster.exists_mem_of_lookup hlookup
    exact h.desks _ hmem
  · rw [h.sameConfig] at hopen
    exact (Desk.ofConfig_sound hopen).1

theorem Sound.withDesk (h : engine.Sound config) {desk : Desk} (hdesk : desk.Sound config)
    (instrument : String) (account : Account) : (engine.withDesk instrument desk account).Sound config :=
  ⟨h.sameConfig, h.sameComposer, Roster.forall_put h.desks _ hdesk⟩

theorem Sound.step {command : Command} {evaluation? : Option Evaluation} (h : engine.Sound config)
    (hstep : Step engine command evaluation? engine') : engine'.Sound config := by
  cases hstep with
  | dropped hnone => exact h
  | cleared hclear => exact ⟨h.sameConfig, h.sameComposer, h.desks⟩
  | worked hrecord hdesk hworked =>
    have hvalid := (Record.parse_ok_iff.1 (Command.record?_message.1 hrecord)).2
    exact h.withDesk (hworked.sound hvalid (h.deskFor hdesk)) _ _

end Engine

end SignalDesk
