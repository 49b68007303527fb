import SignalDesk.Proofs.Engine.Lifecycle
import SignalDesk.Proofs.Trader.Naming

/-!
# Names that are given once

An engine has one desk for each instrument and each desk numbers its entries, so that no two positions
that are ever opened bear one name. A number that an entry has taken is not given again, also where the
entry was given up.
-/

namespace SignalDesk

namespace Engine

open Act

def entries (engine : Engine) (instrument : String) : UInt64 :=
  ((engine.desk? instrument).map fun desk => desk.trader.entries).getD 0

/-- A position that is opened, with what its name is made of. -/
structure Opening where
  instrument : String
  ts : Timestamp
  entry : UInt64
  position : Position

namespace Opening

def name (opening : Opening) : String :=
  positionName opening.instrument opening.ts opening.entry

/-- The position is the one that was named. -/
structure Named (opening : Opening) : Prop where
  id : opening.position.id = Uuid.ofName positionSpace opening.name
  instrument : opening.position.instrument = opening.instrument
  entryTs : opening.position.entryTs = .ofTimestamp opening.ts

end Opening

/-- The positions that an evaluation opens, if the engine has been as given before. -/
def openingsIn (engine : Engine) (evaluation : Evaluation) : List Opening :=
  (evaluation.events.filterMap PositionEvent.opened?).map fun position =>
    ⟨evaluation.instrument, evaluation.ts, engine.entries evaluation.instrument, position⟩

def openings : List Command → Engine → List Opening
  | [], _ => []
  | command :: commands, engine =>
    (reported? command engine).toList.flatMap engine.openingsIn ++
      openings commands (handle command engine).state

/-- Whether a command makes the desk of an instrument count an entry. -/
def advance (instrument : String) (command : Command) (engine : Engine) : Nat :=
  if (handle command engine).state.entries instrument = engine.entries instrument then 0 else 1

/-- The entries that the desk of an instrument counts in the course of commands. -/
def entriesMade (instrument : String) : List Command → Engine → Nat
  | [], _ => 0
  | command :: commands, engine =>
    engine.advance instrument command + entriesMade instrument commands (handle command engine).state

private theorem openings_positions (commands : List Command) (engine : Engine) :
    (engine.openings commands).map Opening.position = (engine.reportsOf commands).flatMap
      fun evaluation => evaluation.events.filterMap PositionEvent.opened? := by
  induction commands generalizing engine with
  | nil => rfl
  | cons command commands ih =>
    rw [openings, reportsOf, List.map_append, List.flatMap_append, ih, List.map_flatMap]
    simp [openingsIn, Function.comp_def]

def Assigned (engine : Engine) : Prop :=
  ∀ instrument desk, engine.deskFor instrument = .ok desk →
    desk.tape.instrument = instrument ∧ desk.trader.instrument = instrument

variable {engine engine' : Engine}

private theorem assigned_of_start {config : Config} (h : ofConfig config = .ok engine) :
    engine.Assigned := by
  simp only [ofConfig, bind_ok_iff, pure_ok_iff] at h
  obtain ⟨account, -, rfl⟩ := h
  intro instrument desk hdesk
  have hopen : Desk.ofConfig (.ofConfig config) config instrument = .ok desk := hdesk
  simp only [Desk.ofConfig, bind_ok_iff, pure_ok_iff] at hopen
  obtain ⟨_, -, _, -, _, -, rfl⟩ := hopen
  exact ⟨rfl, rfl⟩

theorem Assigned.withDesk (h : engine.Assigned) {instrument : String} {desk : Desk}
    (hdesk : desk.tape.instrument = instrument ∧ desk.trader.instrument = instrument)
    (account : Account) : (engine.withDesk instrument desk account).Assigned :=
  withDesk_forall h hdesk account

private theorem entries_of_deskFor {instrument : String} {desk : Desk}
    (h : engine.deskFor instrument = .ok desk) :
    engine.entries instrument = desk.trader.entries := by
  rcases deskFor_cases h with hlookup | ⟨hnone, hopen⟩
  · rw [entries, hlookup]
    rfl
  · simp only [Desk.ofConfig, bind_ok_iff, pure_ok_iff] at hopen
    obtain ⟨_, -, _, -, _, -, rfl⟩ := hopen
    rw [entries, hnone]
    rfl

@[simp] theorem withDesk_entries_self (engine : Engine) (instrument : String) (desk : Desk)
    (account : Account) :
    (engine.withDesk instrument desk account).entries instrument = desk.trader.entries :=
  entries_of_deskFor (withDesk_deskFor_self engine instrument desk account)

private theorem withDesk_entries_of_ne {instrument name : String} (h : name ≠ instrument)
    (engine : Engine) (desk : Desk) (account : Account) :
    (engine.withDesk instrument desk account).entries name = engine.entries name := by
  rw [entries, withDesk_desk?_of_ne h, entries]

/-- What a command does to the numbers: it takes one at most for each instrument, and a position that
it opens has taken one and is named after it. -/
structure Numbers (engine : Engine) (evaluation? : Option Evaluation) (engine' : Engine) : Prop where
  assigned : engine'.Assigned
  entries : ∀ instrument, engine'.entries instrument = engine.entries instrument ∨
    engine'.entries instrument = engine.entries instrument + 1
  atMostOne : ∀ evaluation ∈ evaluation?, (engine.openingsIn evaluation).length ≤ 1
  openings : ∀ evaluation ∈ evaluation?, ∀ opening ∈ engine.openingsIn evaluation, opening.Named ∧
    opening.entry = engine.entries opening.instrument ∧
    engine'.entries opening.instrument = opening.entry + 1

private theorem numbers_turn {instrument : String} {trader trader' : Trader}
    {account account' : Account}
    {quote : Option Quote} {evaluation : Evaluation} {event : Option PositionEvent}
    (h : Trader.Turn trader account quote evaluation.ts event trader' account')
    (hevents : evaluation.events = event.toList) (hname : evaluation.instrument = instrument)
    (htrader : trader.Counts instrument (engine.entries instrument)) :
    (engine.openingsIn evaluation).length ≤ 1 ∧ ∀ opening ∈ engine.openingsIn evaluation,
      opening.Named ∧ opening.instrument = instrument ∧
        opening.entry = engine.entries instrument ∧ trader'.entries = opening.entry + 1 := by
  obtain ⟨hinstrument, hentries⟩ := htrader
  rw [openingsIn, hevents, hname]
  cases h with
  | idle => simp
  | opened hfree hbook hprice hopen hreserve =>
    simp only [Position.openAt, bind_ok_iff, pure_ok_iff] at hopen
    obtain ⟨contracts, -, rfl⟩ := hopen
    refine ⟨le_rfl, List.forall_mem_singleton.2 ⟨⟨?_, hinstrument, rfl⟩, rfl, rfl, ?_⟩⟩
    · rw [Opening.name, ← hentries, ← hinstrument]
      rfl
    · rw [← hentries]
  | closed hheld hprice hpnl hsettle => exact ⟨Nat.zero_le 1, fun _ hmem => absurd hmem List.not_mem_nil⟩

theorem Assigned.counts (h : engine.Assigned) {instrument : String} {desk : Desk}
    (hdesk : engine.deskFor instrument = .ok desk) :
    desk.trader.Counts instrument (engine.entries instrument) :=
  ⟨(h instrument desk hdesk).2, (entries_of_deskFor hdesk).symm⟩

theorem Tried.numbers {command : Command} {evaluation? : Option Evaluation}
    (h : Tried engine command evaluation? engine') (hassigned : engine.Assigned) :
    Numbers engine evaluation? engine' := by
  cases h with
  | kept => exact ⟨hassigned, fun _ => .inl rfl, nofun, nofun⟩
  | cleared => exact ⟨hassigned, fun _ => .inl rfl, nofun, nofun⟩
  | @worked text record desk attempt hrecord hdesk hattempt =>
    have hcounts := hassigned.counts hdesk
    have hadvances := Desk.onRecord_advances hcounts engine.composer record engine.account
    have htape := Desk.onRecord_tape engine.composer record desk engine.account
    rw [hattempt] at hadvances htape
    have hopened : ∀ evaluation ∈ attempt.outcome.toOption,
        (engine.openingsIn evaluation).length ≤ 1 ∧ ∀ opening ∈ engine.openingsIn evaluation,
          opening.Named ∧ opening.instrument = record.instrument ∧
            opening.entry = engine.entries record.instrument ∧
            attempt.state.1.trader.entries = opening.entry + 1 := by
      intro evaluation hmem
      have hworked := (Desk.decided_of_mem hattempt hmem).worked
      obtain ⟨event, hevents, hturn⟩ := hworked.turn
      rw [← hworked.ts] at hturn
      exact numbers_turn hturn hevents (hworked.instrument.trans (hassigned _ _ hdesk).1) hcounts
    refine ⟨hassigned.withDesk ⟨?_, ?_⟩ _, fun instrument => ?_, fun evaluation hmem =>
      (hopened evaluation hmem).1, fun evaluation hmem opening hopening => ?_⟩
    · rw [htape]
      exact (hassigned _ _ hdesk).1
    · exact hadvances.elim And.left And.left
    · by_cases hname : instrument = record.instrument
      · subst hname
        rw [withDesk_entries_self]
        exact hadvances.imp And.right And.right
      · exact .inl (withDesk_entries_of_ne hname _ _ _)
    · obtain ⟨hnamed, hname, hentry, hnext⟩ := (hopened evaluation hmem).2 opening hopening
      rw [hname, withDesk_entries_self]
      exact ⟨hnamed, hentry, hnext⟩

private theorem handle_numbers (h : engine.Assigned) (command : Command) :
    Numbers engine (reported? command engine) (handle command engine).state :=
  (handle_tried command engine).numbers h

private theorem add_one_ne (n : UInt64) : n + 1 ≠ n := by
  intro h
  have hnat := congrArg UInt64.toNat h
  rw [UInt64.toNat_add, UInt64.toNat_one] at hnat
  have := n.toNat_lt
  omega

private theorem entries_toNat {command : Command} {instrument : String} (h : engine.Assigned)
    (hcount : (engine.entries instrument).toNat + engine.advance instrument command < 2 ^ 64) :
    ((handle command engine).state.entries instrument).toNat =
      (engine.entries instrument).toNat + engine.advance instrument command := by
  unfold advance at hcount ⊢
  split at hcount
  · rename_i hsame
    rw [if_pos hsame, hsame, Nat.add_zero]
  · rename_i hne
    have hnext := ((handle_numbers h command).entries instrument).resolve_left hne
    rw [if_neg hne, hnext, UInt64.toNat_add, UInt64.toNat_one, Nat.mod_eq_of_lt hcount]

private def opened (command : Command) (engine : Engine) : List Opening :=
  (reported? command engine).toList.flatMap engine.openingsIn

private theorem opened_length_le {command : Command} (h : engine.Assigned) :
    (engine.opened command).length ≤ 1 := by
  unfold opened
  cases hreport : reported? command engine with
  | none => exact Nat.zero_le 1
  | some evaluation =>
    rw [Option.toList_some, List.flatMap_singleton]
    exact (handle_numbers h command).atMostOne evaluation hreport

private theorem opened_numbered {command : Command} (h : engine.Assigned)
    (hcount : ∀ instrument,
      (engine.entries instrument).toNat + engine.advance instrument command < 2 ^ 64) :
    ∀ opening ∈ engine.opened command,
      opening.Named ∧ opening.entry = engine.entries opening.instrument ∧
        opening.entry.toNat <
          ((handle command engine).state.entries opening.instrument).toNat := by
  intro opening hmem
  obtain ⟨evaluation, hevaluation, hopening⟩ := List.mem_flatMap.1 hmem
  obtain ⟨hnamed, hentry, hnext⟩ :=
    (handle_numbers h command).openings evaluation (Option.mem_toList.1 hevaluation) opening hopening
  refine ⟨hnamed, hentry, ?_⟩
  have hadvance : engine.advance opening.instrument command = 1 := by
    rw [advance, if_neg (by rw [hnext, ← hentry]; exact add_one_ne _)]
  rw [entries_toNat h (hcount _), hadvance, hentry]
  exact Nat.lt_succ_self _

private theorem pairwise_of_length_le_one {α : Type} {items : List α} {r : α → α → Prop}
    (h : items.length ≤ 1) : items.Pairwise r := by
  cases items with
  | nil => exact .nil
  | cons first rest =>
    obtain rfl := List.length_eq_zero_iff.1 (Nat.le_zero.1 (Nat.le_of_succ_le_succ h))
    exact List.pairwise_singleton r first

/-- The openings of an instrument bear numbers that rise from where its desk stands. -/
theorem openings_numbered {commands : List Command} (h : engine.Assigned)
    (hcount : ∀ instrument,
      (engine.entries instrument).toNat + engine.entriesMade instrument commands < 2 ^ 64) :
    (∀ opening ∈ engine.openings commands, opening.Named ∧
      (engine.entries opening.instrument).toNat ≤ opening.entry.toNat) ∧
    (engine.openings commands).Pairwise fun first second =>
      first.instrument = second.instrument → first.entry.toNat < second.entry.toNat := by
  induction commands generalizing engine with
  | nil => exact ⟨fun _ hmem => absurd hmem List.not_mem_nil, List.Pairwise.nil⟩
  | cons command commands ih =>
    have hmade : ∀ instrument, (engine.entries instrument).toNat +
        (engine.advance instrument command +
          (handle command engine).state.entriesMade instrument commands) < 2 ^ 64 := hcount
    have hadvance : ∀ instrument,
        (engine.entries instrument).toNat + engine.advance instrument command < 2 ^ 64 := by
      intro instrument
      have := hmade instrument
      omega
    have hstep instrument := entries_toNat h (hadvance instrument)
    obtain ⟨hlater, hrise⟩ := ih (handle_numbers h command).assigned fun instrument => by
      rw [hstep, Nat.add_assoc]
      exact hmade instrument
    have hfirst := opened_numbered h hadvance
    change (∀ opening ∈ engine.opened command ++ _, _) ∧ (engine.opened command ++ _).Pairwise _
    constructor
    · refine List.forall_mem_append.2 ⟨fun opening hmem => ?_, fun opening hmem => ?_⟩
      · obtain ⟨hnamed, hentry, -⟩ := hfirst opening hmem
        exact ⟨hnamed, hentry ▸ le_rfl⟩
      · obtain ⟨hnamed, hle⟩ := hlater opening hmem
        rw [hstep] at hle
        exact ⟨hnamed, (Nat.le_add_right _ _).trans hle⟩
    · refine List.pairwise_append.2 ⟨pairwise_of_length_le_one (opened_length_le h), hrise,
        fun first hmem second hmem' hsame => ?_⟩
      have hle := (hlater second hmem').2
      rw [← hsame] at hle
      exact (hfirst first hmem).2.2.trans_le hle

private theorem entriesMade_le (instrument : String) (commands : List Command) (engine : Engine) :
    engine.entriesMade instrument commands ≤ commands.length := by
  induction commands generalizing engine with
  | nil => exact le_rfl
  | cons command commands ih =>
    have hadvance : engine.advance instrument command ≤ 1 := by
      unfold advance
      split <;> decide
    rw [entriesMade, List.length_cons, Nat.add_comm]
    exact Nat.add_le_add (ih _) hadvance

/-- The names of positions never collide. A name determines the instrument, the time and the number of
the entry, whatever the instrument contains. The positions that an engine ever opens, given up commands
or not, have the ids of their names, and no two of them have the same name as long as no desk counts
`2 ^ 64` entries. So the ids are distinct if no two of the names have the same id, and another engine
gives the same names to the same commands. -/
theorem names_are_given_once {config : Config} {engine : Engine}
    (hengine : ofConfig config = .ok engine) {commands : List Command}
    (hcount : ∀ instrument, engine.entriesMade instrument commands < 2 ^ 64) :
    let openings := engine.openings commands
    (∀ instrument instrument' ts ts' entry entry',
      positionName instrument ts entry = positionName instrument' ts' entry' ↔
        instrument = instrument' ∧ ts = ts' ∧ entry = entry') ∧
    (openings.map Opening.position = (engine.reportsOf commands).flatMap fun evaluation =>
      evaluation.events.filterMap PositionEvent.opened?) ∧
    (∀ opening ∈ openings, opening.Named) ∧
    (openings.map Opening.name).Nodup ∧
    (Set.InjOn (Uuid.ofName positionSpace) {name | name ∈ openings.map Opening.name} →
      (openings.map fun opening => opening.position.id).Nodup) ∧
    ∀ other, ofConfig config = .ok other → other.openings commands = openings := by
  intro openings
  have hassigned := assigned_of_start hengine
  have hfresh : ∀ instrument, (engine.entries instrument).toNat = 0 := by
    simp only [ofConfig, bind_ok_iff, pure_ok_iff] at hengine
    obtain ⟨account, -, rfl⟩ := hengine
    exact fun _ => rfl
  have hcount' (instrument : String) :
      (engine.entries instrument).toNat + engine.entriesMade instrument commands < 2 ^ 64 := by
    rw [hfresh, Nat.zero_add]
    exact hcount instrument
  obtain ⟨hopenings, hrise⟩ := openings_numbered hassigned hcount'
  have hnames : (openings.map Opening.name).Nodup := by
    rw [List.Nodup, List.pairwise_map]
    refine hrise.imp fun hlt hname => ?_
    obtain ⟨hinstrument, -, hentry⟩ := positionName_inj.1 hname
    exact absurd (hlt hinstrument) (by rw [hentry]; exact Nat.lt_irrefl _)
  refine ⟨fun _ _ _ _ _ _ => positionName_inj, openings_positions commands engine,
    fun opening hmem => (hopenings opening hmem).1, hnames, fun hinj => ?_, fun other hother => ?_⟩
  · have hids : (openings.map fun opening => opening.position.id) =
        (openings.map Opening.name).map (Uuid.ofName positionSpace) := by
      rw [List.map_map]
      exact List.map_congr_left fun opening hmem => (hopenings opening hmem).1.id
    rw [hids]
    exact hnames.map_on fun first hfirst second hsecond h => hinj hfirst hsecond h
  · rw [hengine, Except.ok.injEq] at hother
    rw [← hother]

theorem names_are_given_once_of_colons :
    let config : Config := {
      activation := { dollarVolume := 0.0 }
      composer := { minSignals := 1 }
      signals := { tradeImbalance := { minTrades := 1 } } }
    let commands : List Command := [
      .message "[\"quote\", \"RAIN\", 0, 50, 49, 51, 0, 0]",
      .message "[\"trade\", \"RAIN\", 1000, \"yes\", 100, 51]",
      .message "[\"quote\", \"RAIN:1000\", 0, 50, 49, 51, 0, 0]",
      .message "[\"trade\", \"RAIN:1000\", 1000, \"yes\", 100, 51]",
      .message "[\"quote\", \"RAIN\", 1000, 40, 39, 41, 0, 0]",
      .message "[\"trade\", \"RAIN\", 1000, \"yes\", 100, 51]"]
    ∃ engine, ofConfig config = .ok engine ∧
      (engine.openings commands).map Opening.name =
        ["RAIN:1000:0", "RAIN:1000:1000:0", "RAIN:1000:1"] ∧
      ((engine.openings commands).map fun opening => opening.position.id).Nodup := by
  intro config commands
  have hengine : ∃ engine, ofConfig config = .ok engine ∧
      (engine.openings commands).map Opening.name =
        ["RAIN:1000:0", "RAIN:1000:1000:0", "RAIN:1000:1"] :=
    exists_ok_of_any (by decide +kernel)
  obtain ⟨engine, hengine, hnames⟩ := hengine
  have hcount (instrument : String) : engine.entriesMade instrument commands < 2 ^ 64 :=
    (entriesMade_le instrument commands engine).trans_lt (by decide)
  obtain ⟨-, -, -, -, hids, -⟩ := names_are_given_once hengine hcount
  have hdistinct : (["RAIN:1000:0", "RAIN:1000:1000:0", "RAIN:1000:1"].map
      (Uuid.ofName positionSpace)).Nodup := by decide +kernel
  refine ⟨engine, hengine, hnames, hids ?_⟩
  rw [hnames]
  exact fun first hfirst second hsecond h => List.inj_on_of_nodup_map hdistinct hfirst hsecond h

end Engine

end SignalDesk
