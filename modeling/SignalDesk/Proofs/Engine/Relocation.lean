import SignalDesk.Proofs.Correspondence
import SignalDesk.Proofs.Engine.Run
import SignalDesk.Proofs.Tape.Relocation
import SignalDesk.Proofs.Time.Instant

/-!
# Engines at another time and under other names

An engine that is given the same records at another time and under other names does the same: it
drops the same records, composes the same composites, opens and closes the same positions and has the
same account, also where a window reaches back beyond the calendar in one of the two places only.
-/

namespace SignalDesk

variable {m : Relocation}

def Instant.Shifted (shift : Span) (instant instant' : Instant) : Prop :=
  ∃ ts : Timestamp, instant = .ofTimestamp ts ∧ instant' = .ofTimestamp (ts + shift)

/-- The same position under another name and at another time; its id is a different one. -/
inductive Position.Relocated (m : Relocation) (position : Position) : Position → Prop
  | mk (id : Uuid) {entryTs : Instant} {exitTs : Option Instant}
      (hentry : Instant.Shifted m.shift position.entryTs entryTs)
      (hexit : Option.Rel (Instant.Shifted m.shift) position.exitTs exitTs) :
      Relocated m position
        { position with id, entryTs, exitTs, instrument := m.rename position.instrument }

inductive PositionEvent.Relocated (m : Relocation) : PositionEvent → PositionEvent → Prop
  | opened {position position' : Position} (h : position.Relocated m position') :
      Relocated m (.opened position) (.opened position')
  | closed {position position' : Position} (reason : CloseReason) (h : position.Relocated m position') :
      Relocated m (.closed position reason) (.closed position' reason)

private theorem Position.openAt_relocate (id id' : Uuid) (instrument : String) (side : Side)
    (price : Int64) (ts : Timestamp) (size : Decimal) :
    Agree (Relocated m) (openAt id instrument side price ts size)
      (openAt id' (m.rename instrument) side price (ts + m.shift) size) := by
  unfold openAt
  cases contractsFor size price with
  | error abort => exact .gaveUp abort
  | ok contracts => exact .ok (.mk id' ⟨ts, rfl, rfl⟩ .none)

namespace PositionSettings

private theorem isOverdue_relocate (settings : PositionSettings) {entryTs entryTs' : Instant}
    (h : Instant.Shifted m.shift entryTs entryTs') (ts : Timestamp) :
    settings.isOverdue entryTs' (ts + m.shift) = settings.isOverdue entryTs ts := by
  obtain ⟨entered, rfl, rfl⟩ := h
  have hage : (Instant.ofTimestamp (ts + m.shift)).toNanos -
      (Instant.ofTimestamp (entered + m.shift)).toNanos =
      (Instant.ofTimestamp ts).toNanos - (Instant.ofTimestamp entered).toNanos := by
    simp only [Instant.toNanos_ofTimestamp]
    grind
  simp only [isOverdue, hage]

private theorem exitReason?_relocate (settings : PositionSettings) {position position' : Position}
    (h : position.Relocated m position') (mark : Option Int64) (ts : Timestamp) :
    settings.exitReason? position' mark (ts + m.shift) = settings.exitReason? position mark ts := by
  cases h with
  | mk id hentry hexit => simp only [exitReason?, isOverdue_relocate settings hentry]

end PositionSettings

namespace Trader

/-- The same trader under another name, with the same position at another time. -/
inductive Relocated (m : Relocation) (trader : Trader) : Trader → Prop
  | mk {held : Option Position} (hheld : Option.Rel (Position.Relocated m) trader.held held) :
      Relocated m trader { trader with held, instrument := m.rename trader.instrument }

/-- Both calls are refused, or both are answered with the same event. -/
inductive ReplyRelocated (m : Relocation) :
    Except Refusal (Option PositionEvent) → Except Refusal (Option PositionEvent) → Prop
  | refused (refusal refusal' : Refusal) : ReplyRelocated m (.error refusal) (.error refusal')
  | answered {event event' : Option PositionEvent}
      (h : Option.Rel (PositionEvent.Relocated m) event event') :
      ReplyRelocated m (.ok event) (.ok event')

private theorem closePlan_relocate {trader trader' : Trader} (h : trader.Relocated m trader')
    {position position' : Position} (hposition : position.Relocated m position') (price : Int64)
    (ts : Timestamp) (reason : CloseReason) :
    (trader.closePlan position price ts reason).Corresponds (Relocated m)
      (Option.Rel (PositionEvent.Relocated m))
      (trader'.closePlan position' price (ts + m.shift) reason) := by
  obtain ⟨hheld⟩ := h
  have hpnl : position'.pnlAt price = position.pnlAt price := by
    cases hposition
    rfl
  obtain ⟨id, hentry, hexit⟩ := hposition
  have hfreed : Relocated m { trader with held := none }
      { trader with held := none, instrument := m.rename trader.instrument } := ⟨.none⟩
  unfold closePlan
  rw [hpnl]
  cases position.pnlAt price with
  | error abort => exact .done ⟨.gaveUp abort, hfreed⟩
  | ok pnl =>
    have hclosed : (position.closedAt price ts reason pnl).Relocated m
        { position.closedAt price ts reason pnl with
          id
          instrument := m.rename position.instrument
          entryTs := _
          exitTs := some (.ofTimestamp (ts + m.shift)) } := .mk id hentry (.some ⟨ts, rfl, rfl⟩)
    exact .ask hfreed fun halt => ⟨.ok (.some (.closed reason hclosed)), hfreed⟩

private theorem exitPlan_relocate {trader trader' : Trader} (h : trader.Relocated m trader')
    (quote : Option Quote) (ts : Timestamp) :
    (exitPlan quote ts trader).Corresponds (Relocated m) (Option.Rel (PositionEvent.Relocated m))
      (exitPlan (quote.map (Quote.relocate m)) (ts + m.shift) trader') := by
  have hmarks (side : Side) : (quote.map (Quote.relocate m)).map (fun book => book.bidFor side) =
      quote.map fun book => book.bidFor side := by
    rw [Option.map_map]
    exact Option.map_congr fun book _ => by cases side <;> rfl
  cases h with
  | @mk held' hheld =>
    have hsame := Relocated.mk hheld
    unfold exitPlan
    cases htrader : trader.held with
    | none =>
      rw [htrader] at hheld
      cases hheld
      exact .done ⟨.ok .none, hsame⟩
    | some position =>
      rw [htrader] at hheld
      cases hheld with
      | some hposition =>
        have hreason := trader.settings.exitReason?_relocate hposition
          (quote.map fun book => book.bidFor position.side) ts
        have hclose := closePlan_relocate hsame hposition
        cases hposition with
        | mk id hentry hexit =>
          simp only [hmarks, hreason]
          cases trader.settings.exitReason? position
              (quote.map fun book => book.bidFor position.side) ts with
          | error abort => exact .done ⟨.gaveUp abort, hsame⟩
          | ok reason =>
            cases reason with
            | none => exact .done ⟨.ok .none, hsame⟩
            | some reason => exact hclose _ ts reason

private theorem enter_relocate {trader trader' : Trader} (h : trader.Relocated m trader')
    (composite : Composite) (entry : Entry) :
    (enter composite entry trader).Corresponds (Relocated m) (ReplyRelocated m)
      (enter (composite.relocate m) entry trader') := by
  obtain ⟨hheld⟩ := h
  have hopen := Position.openAt_relocate (m := m)
    (positionId trader.instrument composite.ts trader.entries)
    (positionId (m.rename trader.instrument) (composite.ts + m.shift) trader.entries)
    trader.instrument entry.side entry.price composite.ts trader.tradeSize
  simp only [enter, Composite.relocate]
  generalize Position.openAt _ trader.instrument entry.side entry.price composite.ts
    trader.tradeSize = opened at hopen
  generalize Position.openAt _ (m.rename trader.instrument) entry.side entry.price
    (composite.ts + m.shift) trader.tradeSize = opened' at hopen
  cases hopen with
  | gaveUp abort => exact ⟨.gaveUp abort, .mk hheld⟩
  | ok hposition => exact ⟨.ok (.answered (.some (.opened hposition))), .mk (.some hposition)⟩

private theorem entryOn_relocate {trader trader' : Trader} (h : trader.Relocated m trader')
    (side : Side) (quote : Option Quote) :
    (trader'.entryOn side (quote.map (Quote.relocate m))).toOption =
      (trader.entryOn side quote).toOption := by
  obtain ⟨hheld⟩ := h
  simp only [entryOn]
  generalize trader.held = held at hheld
  cases hheld with
  | some hposition => rfl
  | none =>
    cases quote with
    | none => rfl
    | some book =>
      have hask : (book.relocate m).askFor side = book.askFor side := by cases side <;> rfl
      simp only [Option.map_some, hask, Option.isSome_none, Bool.false_eq_true, if_false]

private theorem entryPlan_relocate {trader trader' : Trader} (h : trader.Relocated m trader')
    (composite : Composite) (quote : Option Quote) :
    (entryPlan composite quote trader).Corresponds (Relocated m) (ReplyRelocated m)
      (entryPlan (composite.relocate m) (quote.map (Quote.relocate m)) trader') := by
  have hentry := fun side => entryOn_relocate h side quote
  have hsettings : trader'.settings = trader.settings := by cases h; rfl
  have hcalled : calledSide? trader'.settings (composite.relocate m) =
      calledSide? trader.settings composite := by rw [hsettings]; rfl
  rw [entryPlan, entryPlan, hcalled]
  cases calledSide? trader.settings composite with
  | none => exact .done ⟨.ok (.answered .none), h⟩
  | some side =>
    have hentry := hentry side
    simp only
    generalize trader.entryOn side quote = made at hentry
    generalize trader'.entryOn side (quote.map (Quote.relocate m)) = made' at hentry
    cases made with
    | error refusal =>
      cases made' with
      | error refusal' => exact .done ⟨.ok (.refused _ _), h⟩
      | ok entry => cases hentry
    | ok entry =>
      cases made' with
      | error refusal' => cases hentry
      | ok entry' =>
        obtain rfl : entry' = entry := Option.some.inj hentry
        have hentered := enter_relocate h composite entry'
        cases h with
        | mk hheld =>
          refine .ask (.mk hheld) fun reply => ?_
          cases reply with
          | error refusal => exact ⟨.ok (.refused _ _), .mk hheld⟩
          | ok granted => exact hentered

end Trader

/-- The same evaluation at another time and under another name. -/
structure Evaluation.Relocated (m : Relocation) (evaluation evaluation' : Evaluation) : Prop where
  instrument : evaluation'.instrument = m.rename evaluation.instrument
  ts : evaluation'.ts = evaluation.ts + m.shift
  composite : evaluation'.composite = evaluation.composite.map (Composite.relocate m)
  events : List.Forall₂ (PositionEvent.Relocated m) evaluation.events evaluation'.events

namespace Desk

structure Relocated (m : Relocation) (desk desk' : Desk) : Prop where
  tape : desk'.tape = desk.tape.relocate m
  dated : desk.tape.Dated m
  trader : desk.trader.Relocated m desk'.trader

variable {config : Config} {desk desk' : Desk}

theorem Relocated.instrument (h : desk.Relocated m desk') :
    desk'.tape.instrument = m.rename desk.tape.instrument := by
  rw [h.tape]
  rfl

theorem evaluate_relocate (hvalid : config.fault? = none) (h : desk.Relocated m desk') :
    (evaluate (.ofConfig config) desk).Corresponds (Relocated m)
      (fun composite composite' => composite' = composite.map (Composite.relocate m))
      (evaluate (.ofConfig config) desk') := by
  unfold evaluate
  refine (Attempt.corresponds_get h).bind fun read read' t t' hread ht => ?_
  have hcomposite : Agree (fun composite composite' => composite' = composite.map (Composite.relocate m))
      ((Composer.ofConfig config).evaluate read.tape)
      ((Composer.ofConfig config).evaluate read'.tape) := by
    rw [hread.tape]
    exact Agree.map_iff.2 (Composer.evaluate_relocate hvalid hread.dated)
  refine (Attempt.corresponds_lift hcomposite ht).bind fun composite composite' t t' hsame ht => ?_
  refine (Attempt.corresponds_notify _ _ ht).bind fun _ _ t t' _ ht => ?_
  exact Attempt.corresponds_pure hsame ht

private theorem conclude_relocate (hvalid : config.fault? = none) (h : desk.Relocated m desk')
    (ts : Timestamp) {events events' : List PositionEvent}
    (hevents : List.Forall₂ (PositionEvent.Relocated m) events events') :
    (conclude (.ofConfig config) ts events desk).Corresponds (Relocated m) (Evaluation.Relocated m)
      (conclude (.ofConfig config) (ts + m.shift) events' desk') := by
  unfold conclude
  refine (evaluate_relocate hvalid h).bind fun composite composite' t t' hsame ht => ?_
  refine (Attempt.corresponds_get ht).bind fun read read' t t' hread ht => ?_
  exact Attempt.corresponds_pure ⟨hread.instrument, rfl, hsame, hevents⟩ ht

private theorem forall₂_toList {event event' : Option PositionEvent}
    (h : Option.Rel (PositionEvent.Relocated m) event event') :
    List.Forall₂ (PositionEvent.Relocated m) event.toList event'.toList := by
  cases h with
  | none => exact .nil
  | some h => exact .cons h .nil

private theorem report_relocate (h : desk.Relocated m desk') (ts : Timestamp) (composite : Composite)
    {reply reply' : Except Refusal (Option PositionEvent)}
    (hreply : Trader.ReplyRelocated m reply reply') :
    (report ts composite reply desk).Corresponds (Relocated m) (Evaluation.Relocated m)
      (report (ts + m.shift) (composite.relocate m) reply' desk') := by
  cases hreply with
  | refused refusal refusal' =>
    refine (Attempt.corresponds_get h).bind fun read read' t t' hread ht => ?_
    refine (Attempt.corresponds_notify _ _ ht).bind fun _ _ t t' _ ht => ?_
    exact Attempt.corresponds_pure ⟨hread.instrument, rfl, rfl, .nil⟩ ht
  | answered hevent =>
    refine (Attempt.corresponds_get h).bind fun read read' t t' hread ht => ?_
    exact Attempt.corresponds_pure ⟨hread.instrument, rfl, rfl, forall₂_toList hevent⟩ ht

private theorem focus_relocate {α α' : Type} {values : α → α' → Prop} (h : desk.Relocated m desk')
    {plan : Trader → Plan Trader α} {plan' : Trader → Plan Trader α'}
    (hplan : (plan desk.trader).Corresponds (Trader.Relocated m) values (plan' desk'.trader)) :
    (Plan.focus Desk.trader setTrader plan desk).Corresponds (Relocated m) values
      (Plan.focus Desk.trader setTrader plan' desk') :=
  hplan.focus h (fun _ _ => rfl) (fun _ _ => rfl) fun _ _ _ _ hd ht => ⟨hd.tape, hd.dated, ht⟩

theorem latestQuote?_relocate (h : desk.Relocated m desk') :
    desk'.tape.latestQuote? = desk.tape.latestQuote?.map (Quote.relocate m) := by
  rw [h.tape, Tape.latestQuote?_relocate]

private theorem entryPlan_relocate (h : desk.Relocated m desk') (ts : Timestamp)
    (composite : Option Composite) :
    (entryPlan ts composite desk).Corresponds (Relocated m) (Evaluation.Relocated m)
      (entryPlan (ts + m.shift) (composite.map (Composite.relocate m)) desk') := by
  cases composite with
  | none => exact .done ⟨.ok ⟨h.instrument, rfl, rfl, .nil⟩, h⟩
  | some composite =>
    have henter := Trader.entryPlan_relocate h.trader composite desk.tape.latestQuote?
    rw [← latestQuote?_relocate h] at henter
    exact (focus_relocate h henter).andThen fun reply reply' t t' hreply ht =>
      report_relocate ht ts composite hreply

private theorem recordPlan_relocate (hvalid : config.fault? = none) (h : desk.Relocated m desk')
    {record : Record} (hrecord : record.Dated m) :
    (recordPlan (.ofConfig config) record desk).Corresponds (Relocated m) (Evaluation.Relocated m)
      (recordPlan (.ofConfig config) (record.relocate m) desk') := by
  have hupdated : Relocated m { desk with tape := desk.tape.update record }
      { desk' with tape := desk'.tape.update (record.relocate m) } := by
    refine ⟨?_, Tape.update_dated h.dated hrecord, h.trader⟩
    rw [h.tape, Tape.update_relocate h.dated hrecord]
  have hexit := Trader.exitPlan_relocate h.trader (desk.tape.update record).latestQuote? record.ts
  rw [← latestQuote?_relocate hupdated, ← Record.relocate_ts] at hexit
  have hfocused := focus_relocate hupdated hexit
  unfold recordPlan
  simp only
  generalize Plan.focus Desk.trader setTrader _ { desk with tape := desk.tape.update record } = plan
    at hfocused
  generalize Plan.focus Desk.trader setTrader _
    { desk' with tape := desk'.tape.update (record.relocate m) } = plan' at hfocused
  have hclosed {p p' : Plan Desk (Option PositionEvent)}
      (hp : p.Corresponds (Relocated m) (Option.Rel (PositionEvent.Relocated m)) p') :
      (p.andThen fun closed => conclude (.ofConfig config) record.ts closed.toList).Corresponds
        (Relocated m) (Evaluation.Relocated m)
        (p'.andThen fun closed =>
          conclude (.ofConfig config) (record.relocate m).ts closed.toList) := by
    refine hp.andThen fun closed closed' t t' hclosed ht => ?_
    rw [Record.relocate_ts]
    exact conclude_relocate hvalid ht record.ts (forall₂_toList hclosed)
  cases hfocused with
  | ask hstate hresume => exact hclosed (.ask hstate hresume)
  | @done attempt attempt' hattempt =>
    obtain ⟨outcome, exited, notices⟩ := attempt
    obtain ⟨outcome', exited', notices'⟩ := attempt'
    obtain ⟨hout, hstate⟩ := hattempt
    cases hout with
    | gaveUp abort => exact hclosed (.done ⟨.gaveUp abort, hstate⟩)
    | ok hevent =>
      cases hevent with
      | some hevent => exact hclosed (.done ⟨.ok (.some hevent), hstate⟩)
      | none =>
        refine Plan.Corresponds.after ((Attempt.corresponds_notify _ _ hstate).bind
          fun _ _ t t' _ ht => evaluate_relocate hvalid ht) fun composite composite' t t' hsame ht => ?_
        subst hsame
        rw [Record.relocate_ts]
        exact entryPlan_relocate ht record.ts composite

end Desk

/-- The same desks in the same order, each at another time and under another name. -/
def Roster.Relocated (m : Relocation) : Roster Desk → Roster Desk → Prop :=
  List.Forall₂ fun entry entry' => entry'.1 = m.rename entry.1 ∧ entry.2.Relocated m entry'.2

namespace Roster

variable {roster roster' : Roster Desk}

theorem Relocated.lookup (h : roster.Relocated m roster') (instrument : String) :
    Option.Rel (Desk.Relocated m) (roster.lookup instrument)
      (roster'.lookup (m.rename instrument)) := by
  induction h with
  | nil => exact .none
  | @cons entry entry' roster roster' hentry hrest ih =>
    rw [List.lookup_cons, List.lookup_cons, hentry.1, m.rename_beq]
    cases instrument == entry.1 with
    | true => exact .some hentry.2
    | false => exact ih

theorem Relocated.put (h : roster.Relocated m roster') (instrument : String) {desk desk' : Desk}
    (hdesk : desk.Relocated m desk') :
    (roster.put instrument desk).Relocated m (roster'.put (m.rename instrument) desk') := by
  induction h with
  | nil => exact .cons ⟨rfl, hdesk⟩ .nil
  | @cons entry entry' roster roster' hentry hrest ih =>
    unfold Roster.put
    simp only [hentry.1, m.rename_beq]
    cases entry.1 == instrument with
    | true => exact .cons ⟨rfl, hdesk⟩ hrest
    | false => exact .cons ⟨rfl, hentry.2⟩ ih

end Roster

namespace Engine

/-- The same engine at another time and under other names. -/
structure Relocated (m : Relocation) (config : Config) (engine engine' : Engine) : Prop where
  sameConfig : engine.config = config
  sameComposer : engine.composer = .ofConfig config
  others : engine' = { engine with desks := engine'.desks }
  desks : engine.desks.Relocated m engine'.desks

variable {config : Config} {engine engine' : Engine}

private theorem ofConfig_relocate (hvalid : config.fault? = none) (instrument : String) :
    Agree (Desk.Relocated m) (Desk.ofConfig (.ofConfig config) config instrument)
      (Desk.ofConfig (.ofConfig config) config (m.rename instrument)) := by
  obtain ⟨lookback, margin, hlookback, hmargin, hnonneg, hnonneg', hopen⟩ :=
    Desk.ofConfig_of_valid hvalid instrument
  obtain ⟨lookback', margin', hlookback', hmargin', -, -, hopen'⟩ :=
    Desk.ofConfig_of_valid hvalid (m.rename instrument)
  obtain rfl := Except.ok.inj (hlookback.symm.trans hlookback')
  obtain rfl := Option.some.inj (hmargin.symm.trans hmargin')
  rw [hopen, hopen']
  exact .ok ⟨rfl, Tape.empty_dated instrument (Int.add_nonneg hnonneg hnonneg'), .mk .none⟩

private theorem Relocated.withDesks (h : engine.Relocated m config engine')
    {desks desks' : Roster Desk}
    (hdesks : desks.Relocated m desks') {account account' : Account} (haccount : account' = account) :
    Relocated m config { engine with desks, account }
      { engine' with desks := desks', account := account' } := by
  refine ⟨h.sameConfig, h.sameComposer, ?_, hdesks⟩
  rw [h.others, haccount]

private theorem openDesk_relocate (hvalid : config.fault? = none)
    (h : engine.Relocated m config engine') (instrument : String) :
    (openDesk instrument engine).Corresponds (Relocated m config) (Desk.Relocated m)
      (openDesk (m.rename instrument) engine') := by
  unfold openDesk
  refine (Attempt.corresponds_get h).bind fun read read' t t' hread ht => ?_
  have hlookup := hread.desks.lookup instrument
  simp only [desk?]
  generalize read.desks.lookup instrument = found at hlookup
  generalize read'.desks.lookup (m.rename instrument) = found' at hlookup
  cases hlookup with
  | some hdesk => exact Attempt.corresponds_pure hdesk ht
  | none =>
    refine (Attempt.corresponds_notify _ _ ht).bind fun _ _ t t' _ ht => ?_
    have hopen : Agree (Desk.Relocated m) (Desk.ofConfig read.composer read.config instrument)
        (Desk.ofConfig read'.composer read'.config (m.rename instrument)) := by
      rw [hread.others, hread.sameComposer, hread.sameConfig]
      exact ofConfig_relocate hvalid instrument
    refine (Attempt.corresponds_lift hopen ht).bind fun desk desk' t t' hdesk ht => ?_
    have haccount : read'.account = read.account := by rw [hread.others]
    have hadded := hread.withDesks (hread.desks.put instrument hdesk) haccount
    refine (Attempt.corresponds_set hadded).bind fun _ _ t t' _ ht => ?_
    exact Attempt.corresponds_pure hdesk ht

/-- A record is dropped in both places or worked on alike. -/
theorem process_relocate (hvalid : config.fault? = none) (h : engine.Relocated m config engine')
    {record : Record} (hrecord : record.Dated m) :
    (process record engine).Corresponds (Relocated m config)
      (Option.Rel (Evaluation.Relocated m)) (process (record.relocate m) engine') := by
  have hsame : (record.relocate m).isValid = record.isValid := by
    rw [Record.isValid, Record.relocate_fault?]
    rfl
  unfold process
  refine (Attempt.corresponds_notify _ _ h).bind fun _ _ t t' _ ht => ?_
  rw [hsame, Record.relocate_instrument]
  cases record.isValid with
  | false => exact Attempt.corresponds_pure .none ht
  | true =>
    simp only [if_true]
    refine (openDesk_relocate hvalid ht record.instrument).bind fun desk desk' t t' hdesk ht => ?_
    refine (Attempt.corresponds_get ht).bind fun read read' t t' hread ht => ?_
    have hcomposer : read'.composer = .ofConfig config := by rw [hread.others, hread.sameComposer]
    rw [hread.sameComposer, hcomposer]
    have haccount : t'.account = t.account := by rw [ht.others]
    have hwork := (Desk.recordPlan_relocate hvalid hdesk hrecord).run desk desk' t.account
    have hfocused : (Act.focus (fun engine : Engine => (desk, engine.account))
        (fun engine shared =>
          { engine with
            account := shared.2
            desks := engine.desks.put record.instrument shared.1 })
        (Desk.onRecord (.ofConfig config) record) t).Corresponds (Relocated m config)
        (Evaluation.Relocated m)
        (Act.focus (fun engine : Engine => (desk', engine.account))
          (fun engine shared =>
            { engine with
              account := shared.2
              desks := engine.desks.put (m.rename record.instrument) shared.1 })
          (Desk.onRecord (.ofConfig config) (record.relocate m)) t') := by
      refine Attempt.Corresponds.focus (fun u u' => Desk.Relocated m u.1 u'.1 ∧ u'.2 = u.2)
        ?_ fun u u' hu => ?_
      · simp only [haccount]
        exact hwork
      · exact ht.withDesks (ht.desks.put record.instrument hu.1) hu.2
    exact hfocused.bind fun evaluation evaluation' t t' hevaluation ht =>
      Attempt.corresponds_pure (.some hevaluation) ht

/-- What an engine is given: a record that has been decoded, or a request to clear a halt. -/
inductive Input where
  | record (record : Record)
  | clearHalt

def Input.record? : Input → Option Record
  | .record r => some r
  | .clearHalt => none

def Input.relocate (m : Relocation) : Input → Input
  | .record r => .record (r.relocate m)
  | .clearHalt => .clearHalt

def accept : Input → Act Engine (Option Evaluation)
  | .record r => process r
  | .clearHalt => do
    clearHalt
    return none

/-- What comes of each input, given up or not, and the account after it. -/
def trace (engine : Engine) : List Input → List (Except Abort (Option Evaluation) × Account)
  | [] => []
  | input :: inputs =>
    let attempt := accept input engine
    (attempt.outcome, attempt.state.account) :: attempt.state.trace inputs

/-- The same came of an input but for time and name, and the account is the same. -/
def SameButPlace (m : Relocation) (step step' : Except Abort (Option Evaluation) × Account) : Prop :=
  Agree (Option.Rel (Evaluation.Relocated m)) step.1 step'.1 ∧ step'.2 = step.2

private theorem clearHalt_relocate (h : engine.Relocated m config engine') :
    (clearHalt engine).Corresponds (Relocated m config) Eq (clearHalt engine') := by
  have haccount : engine'.account = engine.account := by rw [h.others]
  refine Attempt.Corresponds.focus (fun u u' => u' = u) ?_ fun u u' hu => ?_
  · rw [haccount]
    exact ⟨Agree.refl (fun _ => rfl) _, rfl⟩
  · exact h.withDesks h.desks hu

private theorem accept_relocate (hvalid : config.fault? = none)
    (h : engine.Relocated m config engine')
    {input : Input} (hinput : ∀ record ∈ input.record?, record.Dated m) :
    (accept input engine).Corresponds (Relocated m config) (Option.Rel (Evaluation.Relocated m))
      (accept (input.relocate m) engine') := by
  cases input with
  | record r => exact process_relocate hvalid h (hinput r rfl)
  | clearHalt =>
    refine (clearHalt_relocate h).bind fun _ _ t t' _ ht => ?_
    exact Attempt.corresponds_pure .none ht

theorem Relocated.trace (hvalid : config.fault? = none) (h : engine.Relocated m config engine')
    {inputs : List Input} (hinputs : ∀ input ∈ inputs, ∀ record ∈ input.record?, record.Dated m) :
    List.Forall₂ (SameButPlace m) (engine.trace inputs)
      (engine'.trace (inputs.map (Input.relocate m))) := by
  induction inputs generalizing engine engine' with
  | nil => exact .nil
  | cons input inputs ih =>
    obtain ⟨hinput, hinputs⟩ := List.forall_mem_cons.1 hinputs
    obtain ⟨hout, hstate⟩ := accept_relocate hvalid h hinput
    refine .cons ⟨hout, ?_⟩ (ih hstate hinputs)
    rw [hstate.others]

/-- Only differences of times matter, and instruments only as far as they are the same. At another
time and under other names, the same records come to the same: they are dropped, evaluated or given
up alike, with the same numbers and texts, and the account is the same after each of them. -/
theorem trace_relocates {config : Config} (hvalid : config.fault? = none) {engine : Engine}
    (hopen : ofConfig config = .ok engine) (m : Relocation) {inputs : List Input}
    (hinputs : ∀ input ∈ inputs, ∀ record ∈ input.record?,
      Timestamp.inRange record.ts = true ∧ Timestamp.inRange (record.ts + m.shift) = true) :
    List.Forall₂ (SameButPlace m) (engine.trace inputs)
      (engine.trace (inputs.map (Input.relocate m))) := by
  have hstart : engine.Relocated m config engine := by
    simp only [ofConfig, bind_ok_iff, pure_ok_iff] at hopen
    obtain ⟨account, -, rfl⟩ := hopen
    exact ⟨rfl, rfl, rfl, .nil⟩
  exact hstart.trace hvalid hinputs

/-- The first seconds of the calendar, where every window is cut off, lived through again in 1970 by
another instrument. A position is opened and closed, and a record without a name is dropped. -/
theorem trace_relocates_of_first_seconds :
    let config : Config := {
      activation := { dollarVolume := 0.0 }
      composer := { minSignals := 1 }
      signals := { tradeImbalance := { enabled := true, minTrades := 1 } } }
    let rename := Equiv.swap "RAIN" "SNOW"
    let inputs := [
      Input.record (.quote ⟨"RAIN", earliest, 49, 48, 50, 0, 0⟩),
      Input.record (.trade ⟨"RAIN", earliest + 1000, .yes, 10, 50⟩),
      Input.record (.trade ⟨" ", earliest + 1500, .yes, 10, 50⟩),
      Input.record (.quote ⟨"RAIN", earliest + 2000, 61, 60, 62, 0, 0⟩),
      Input.clearHalt]
    let events (step : Except Abort (Option Evaluation) × Account) : Option Nat :=
      step.1.toOption.join.map fun evaluation => evaluation.events.length
    ∃ engine, ofConfig config = .ok engine ∧
      (engine.trace inputs).map events = [some 0, some 1, none, some 1, none] ∧
      ∃ m : Relocation, m.rename = rename ∧ m.shift = -earliest ∧
        List.Forall₂ (SameButPlace m) (engine.trace inputs)
          (engine.trace (inputs.map (Input.relocate m))) := by
  intro config rename inputs events
  have hblank (name : String) : isBlankText (rename name) = isBlankText name := by
    have hrain : isBlankText "RAIN" = false := by decide +kernel
    have hsnow : isBlankText "SNOW" = false := by decide +kernel
    by_cases hname : name = "RAIN"
    · rw [hname, Equiv.swap_apply_left, hrain, hsnow]
    · by_cases hname' : name = "SNOW"
      · rw [hname', Equiv.swap_apply_right, hrain, hsnow]
      · rw [Equiv.swap_apply_of_ne_of_ne hname hname']
  let m : Relocation := ⟨-earliest, rename, rename.injective, hblank⟩
  have hrun : ∃ engine, ofConfig config = .ok engine ∧
      (engine.trace inputs).map events = [some 0, some 1, none, some 1, none] :=
    exists_ok_of_any (by decide +kernel)
  obtain ⟨engine, hopen, hevents⟩ := hrun
  have hvalid : config.fault? = none := by decide +kernel
  have hinputs : ∀ input ∈ inputs, ∀ record ∈ input.record?,
      Timestamp.inRange record.ts = true ∧ Timestamp.inRange (record.ts + -earliest) = true := by
    decide +kernel
  exact ⟨engine, hopen, hevents, m, rfl, rfl, trace_relocates hvalid hopen m hinputs⟩

end Engine

end SignalDesk
