import SignalDesk.Proofs.Engine.Lifecycle
import SignalDesk.Proofs.Grant

/-!
# Instruments apart from each other

A run of the engine, looked at from one instrument, is a session of a single desk over the records of
that instrument, which meets the shared account in whatever state the others have left it. The
composites and the tape do not depend on the account, and if no entry is refused neither do the
position events.
-/

namespace SignalDesk

/-- What is evaluated for an instrument, each composite with the time of its record. -/
def compositesOf (instrument : String) (evaluations : List Evaluation) :
    List (Timestamp × Option Composite) :=
  (evaluations.filter fun evaluation => evaluation.instrument == instrument).map
    fun evaluation => (evaluation.ts, evaluation.composite)

namespace Desk

open Act

variable {composer : Composer} {config : Config} {instrument : String} {record : Record}

/-- The desk that the next record finds: the one there is, or a new one. -/
def orOpened (composer : Composer) (config : Config) (instrument : String) :
    Option Desk → Except Abort Desk
  | some desk => .ok desk
  | none => ofConfig composer config instrument

/-- The work of one desk on the records of its instrument, with the evaluations and the refusals that
come of it. The account may be in any state when a record arrives. -/
inductive Session (composer : Composer) (config : Config) (instrument : String) :
    Option Desk → List Record → List Evaluation → List Refusal → Option Desk → Prop
  | nil (desk? : Option Desk) : Session composer config instrument desk? [] [] [] desk?
  | dropped {desk? last : Option Desk} {record : Record} {records : List Record}
      {evaluations : List Evaluation} {refusals : List Refusal} (hinvalid : record.isValid = false)
      (hrest : Session composer config instrument desk? records evaluations refusals last) :
      Session composer config instrument desk? (record :: records) evaluations refusals last
  | worked {desk? last : Option Desk} {desk desk' : Desk} {account account' : Account}
      {record : Record} {records : List Record} {evaluation : Evaluation}
      {evaluations : List Evaluation} {refusals : List Refusal} (hvalid : record.isValid = true)
      (hopen : orOpened composer config instrument desk? = .ok desk)
      (hplan : (desk.recordPlan composer record).run.Yields (desk, account) evaluation
        (desk', account'))
      (hrest : Session composer config instrument (some desk') records evaluations refusals last) :
      Session composer config instrument desk? (record :: records) (evaluation :: evaluations)
        (((desk.recordPlan composer record).refusal? account).toList ++ refusals) last

private theorem orOpened_tape {desk? other? : Option Desk} {desk other : Desk}
    (hsame : desk?.map Desk.tape = other?.map Desk.tape)
    (hdesk : orOpened composer config instrument desk? = .ok desk)
    (hother : orOpened composer config instrument other? = .ok other) : desk.tape = other.tape := by
  cases desk? with
  | none =>
    have hnone : other? = none := by simpa using hsame.symm
    subst hnone
    rw [hdesk] at hother
    rw [Except.ok.inj hother]
  | some found =>
    obtain ⟨found', rfl, htape⟩ := Option.map_eq_some_iff.1 hsame.symm
    rw [← Except.ok.inj hdesk, ← Except.ok.inj hother]
    exact htape.symm

namespace Session

variable {desk? other? last last' : Option Desk} {records : List Record}
  {evaluations evaluations' : List Evaluation} {refusals refusals' : List Refusal}

/-- Sessions over the same records that start with the same tape evaluate the same composites. -/
theorem composites_eq (h : Session composer config instrument desk? records evaluations refusals last)
    (h' : Session composer config instrument other? records evaluations' refusals' last')
    (hsame : desk?.map Desk.tape = other?.map Desk.tape) :
    (evaluations.map fun evaluation => (evaluation.ts, evaluation.composite)) =
        (evaluations'.map fun evaluation => (evaluation.ts, evaluation.composite)) ∧
      last.map Desk.tape = last'.map Desk.tape := by
  induction h generalizing other? evaluations' refusals' last' with
  | nil =>
    cases h'
    exact ⟨rfl, hsame⟩
  | dropped hinvalid hrest ih =>
    cases h' with
    | dropped _ hrest' => exact ih hrest' hsame
    | worked hvalid' =>
      rw [hinvalid] at hvalid'
      cases hvalid'
  | worked hvalid hopen hplan hrest ih =>
    cases h' with
    | dropped hinvalid' =>
      rw [hvalid] at hinvalid'
      cases hinvalid'
    | worked _ hopen' hplan' hrest' =>
      have hworked := recordPlan_worked hplan
      have hworked' := recordPlan_worked hplan'
      have htape := hworked.tape
      rw [orOpened_tape hsame hopen hopen', ← hworked'.tape] at htape
      have hcomposite := hworked.composite
      rw [htape, hworked'.composite, Except.ok.injEq] at hcomposite
      obtain ⟨hcomposites, hlast⟩ := ih hrest' (congrArg some htape)
      refine ⟨?_, hlast⟩
      rw [List.map_cons, List.map_cons, hcomposites, hworked.ts, hworked'.ts, hcomposite]

/-- Sessions over the same records of the same desk are the same if neither meets a refusal. -/
theorem eq_of_granted (h : Session composer config instrument desk? records evaluations refusals last)
    (h' : Session composer config instrument desk? records evaluations' refusals' last')
    (hgranted : refusals = []) (hgranted' : refusals' = []) :
    evaluations = evaluations' ∧ last = last' := by
  induction h generalizing evaluations' refusals' last' with
  | nil =>
    cases h'
    exact ⟨rfl, rfl⟩
  | dropped hinvalid hrest ih =>
    cases h' with
    | dropped _ hrest' => exact ih hrest' hgranted hgranted'
    | worked hvalid' =>
      rw [hinvalid] at hvalid'
      cases hvalid'
  | worked hvalid hopen hplan hrest ih =>
    cases h' with
    | dropped hinvalid' =>
      rw [hvalid] at hinvalid'
      cases hinvalid'
    | worked _ hopen' hplan' hrest' =>
      rw [hopen, Except.ok.injEq] at hopen'
      subst hopen'
      obtain ⟨hnone, hrefusals⟩ := List.append_eq_nil_iff.1 hgranted
      obtain ⟨hnone', hrefusals'⟩ := List.append_eq_nil_iff.1 hgranted'
      obtain ⟨hout, hstate⟩ := (recordPlan_unmoved composer _ _).run_granted hplan
        (Option.toList_eq_nil_iff.1 hnone)
      obtain ⟨hout', hstate'⟩ := (recordPlan_unmoved composer _ _).run_granted hplan'
        (Option.toList_eq_nil_iff.1 hnone')
      rw [hout, Except.ok.injEq] at hout'
      rw [hstate] at hstate'
      subst hout' hstate'
      obtain ⟨hevaluations, hlast⟩ := ih hrest' hrefusals hrefusals'
      exact ⟨by rw [hevaluations], hlast⟩

private theorem refusals_isOfAccount
    (h : Session composer config instrument desk? records evaluations refusals last) :
    ∀ refusal ∈ refusals, refusal.IsOfAccount := by
  induction h with
  | nil => simp
  | dropped hinvalid hrest ih => exact ih
  | worked hvalid hopen hplan hrest ih =>
    intro refusal hrefusal
    rcases List.mem_append.1 hrefusal with hfirst | hlater
    · exact Plan.refusal?_isOfAccount (Option.mem_toList.1 hfirst)
    · exact ih refusal hlater

end Session

end Desk

namespace Engine

open Act

/-- Why the account turns down an entry on a record, if it does. -/
def refusal? (engine : Engine) (record : Record) : Option Refusal :=
  match engine.deskFor record.instrument with
  | .ok desk =>
    if record.isValid then (desk.recordPlan engine.composer record).refusal? engine.account else none
  | .error _ => none

/-- The refusals that the entries of an instrument meet while an engine processes records. -/
def refusals (instrument : String) : List Record → Engine → List Refusal
  | [], _ => []
  | record :: records, engine =>
    (if record.instrument == instrument then (engine.refusal? record).toList else []) ++
      refusals instrument records (process record engine).state

private theorem deskFor_eq (engine : Engine) (instrument : String) :
    engine.deskFor instrument =
      Desk.orOpened engine.composer engine.config instrument (engine.desk? instrument) := by
  unfold deskFor
  cases engine.desk? instrument <;> rfl

/-- A run is a session of every desk. -/
theorem processAll_session {records : List Record} {engine engine' : Engine}
    {evaluations : List Evaluation} (hlabelled : engine.Labelled)
    (h : (processAll records).Yields engine evaluations engine') (instrument : String) :
    Desk.Session engine.composer engine.config instrument (engine.desk? instrument)
      (records.filter fun record => record.instrument == instrument)
      (evaluations.filter fun evaluation => evaluation.instrument == instrument)
      (refusals instrument records engine) (engine'.desk? instrument) := by
  induction records generalizing engine evaluations with
  | nil =>
    obtain ⟨rfl, rfl⟩ := yields_pure_iff.1 h
    exact .nil _
  | cons record records ih =>
    simp only [processAll, yields_bind_iff, yields_pure_iff] at h
    obtain ⟨evaluation?, middle, hprocess, rest, _, hrest, rfl, rfl⟩ := h
    have hstate : (process record engine).state = middle := hprocess.2
    rw [refusals, hstate]
    rcases process_plan hprocess with ⟨hinvalid, rfl, rfl⟩ |
      ⟨hvalid, desk, evaluation, desk', account, rfl, hdesk, hplan, rfl⟩
    · have hsession := ih hlabelled hrest
      have hnone : middle.refusal? record = none := by
        unfold refusal?
        split
        · rw [if_neg (by simp [hinvalid])]
        · rfl
      by_cases hname : record.instrument = instrument
      · simpa [hname, hnone] using Desk.Session.dropped hinvalid hsession
      · simpa [hname] using hsession
    · have hworked := Desk.recordPlan_worked hplan
      have hlabel := hlabelled _ _ hdesk
      have hsession := ih (hlabelled.withDesk (by rw [hworked.tape]; exact hlabel) account) hrest
      have hinstrument : evaluation.instrument = record.instrument :=
        hworked.instrument.trans hlabel
      by_cases hname : record.instrument = instrument
      · subst hname
        rw [withDesk_desk?_self] at hsession
        have hrefusal : engine.refusal? record =
            (desk.recordPlan engine.composer record).refusal? engine.account := by
          simp only [refusal?, hdesk, hvalid, if_true]
        rw [deskFor_eq] at hdesk
        simpa [hinstrument, hrefusal] using Desk.Session.worked hvalid hdesk hplan hsession
      · rw [withDesk_desk?_of_ne (Ne.symm hname)] at hsession
        simpa [hname, hinstrument, withDesk] using hsession

/-- Runs over streams with the same records of an instrument evaluate the same composites for it and
leave it the same tape, whatever the other records are. The only thing that can tell them apart is a
refusal of an entry, for a halt or for lack of capital: without one, the position events and the desk
are the same as well. -/
theorem instruments_do_not_interfere {config : Config} {start first second : Engine}
    (hstart : ofConfig config = .ok start) {instrument : String} {records others : List Record}
    (hsame : (records.filter fun record => record.instrument == instrument) =
      others.filter fun record => record.instrument == instrument)
    {evaluations evaluations' : List Evaluation}
    (hrun : (processAll records).Yields start evaluations first)
    (hother : (processAll others).Yields start evaluations' second) :
    compositesOf instrument evaluations = compositesOf instrument evaluations' ∧
    (first.desk? instrument).map Desk.tape = (second.desk? instrument).map Desk.tape ∧
    (∀ refusal ∈ refusals instrument records start, refusal.IsOfAccount) ∧
    (refusals instrument records start = [] → refusals instrument others start = [] →
      eventsOf instrument evaluations = eventsOf instrument evaluations' ∧
      first.desk? instrument = second.desk? instrument) := by
  have hlabelled := (alive_of_start hstart).labelled
  have hsession := processAll_session hlabelled hrun instrument
  have hsession' := processAll_session hlabelled hother instrument
  rw [← hsame] at hsession'
  obtain ⟨hcomposites, htape⟩ := hsession.composites_eq hsession' rfl
  refine ⟨hcomposites, htape, hsession.refusals_isOfAccount, ?_⟩
  intro hgranted hgranted'
  obtain ⟨hevaluations, hdesk⟩ := hsession.eq_of_granted hsession' hgranted hgranted'
  refine ⟨?_, hdesk⟩
  rw [eventsOf, hevaluations, eventsOf]

/-- Another instrument trades before, between and after the records of the first, and sends one that
is dropped. -/
theorem instruments_do_not_interfere_of_interleaving :
    let config : Config := {
      activation := { dollarVolume := 0.0 }
      composer := { minSignals := 1 }
      signals := { tradeImbalance := { minTrades := 1 } } }
    let quote (instrument : String) (ts : Timestamp) : Record := .quote ⟨instrument, ts, 50, 49, 51, 0, 0⟩
    let trade (instrument : String) (ts : Timestamp) (count : Contracts) : Record :=
      .trade ⟨instrument, ts, .yes, count, 51⟩
    let alone := [quote "RAIN" 0, trade "RAIN" 1000 100, trade "RAIN" 2000 0]
    let mixed := [quote "SNOW" 0, trade "SNOW" 500 10, quote "RAIN" 0, trade "SNOW" 700 0,
      trade "RAIN" 1000 100, trade "RAIN" 2000 0, trade "SNOW" 3000 5]
    ∃ start evaluations first evaluations' second, ofConfig config = .ok start ∧
      (processAll alone).Yields start evaluations first ∧
      (processAll mixed).Yields start evaluations' second ∧
      (eventsOf "RAIN" evaluations).length = 1 ∧ (eventsOf "SNOW" evaluations').length = 1 ∧
      compositesOf "RAIN" evaluations = compositesOf "RAIN" evaluations' ∧
      eventsOf "RAIN" evaluations = eventsOf "RAIN" evaluations' ∧
      first.desk? "RAIN" = second.desk? "RAIN" := by
  intro config quote trade alone mixed
  have hstart : ∃ start, ofConfig config = .ok start ∧
      (refusals "RAIN" alone start = [] ∧ refusals "RAIN" mixed start = []) ∧
      ((processAll alone start).outcome.toOption.any fun evaluations =>
        (eventsOf "RAIN" evaluations).length = 1) = true ∧
      ((processAll mixed start).outcome.toOption.any fun evaluations =>
        (eventsOf "SNOW" evaluations).length = 1) = true := exists_ok_of_any (by decide +kernel)
  obtain ⟨start, hstart, ⟨hgranted, hgranted'⟩, halone, hmixed⟩ := hstart
  obtain ⟨evaluations, hout, hrain⟩ := exists_ok_of_any halone
  obtain ⟨evaluations', hout', hsnow⟩ := exists_ok_of_any hmixed
  have hrun := Act.yields_of_outcome hout
  have hother := Act.yields_of_outcome hout'
  have hsame : (alone.filter fun record => record.instrument == "RAIN") =
      mixed.filter fun record => record.instrument == "RAIN" := by decide
  obtain ⟨hcomposites, -, -, hevents⟩ := instruments_do_not_interfere hstart hsame hrun hother
  obtain ⟨hsame, hdesk⟩ := hevents hgranted hgranted'
  exact ⟨start, evaluations, _, evaluations', _, hstart, hrun, hother, hrain, hsnow, hcomposites,
    hsame, hdesk⟩

end Engine

end SignalDesk
