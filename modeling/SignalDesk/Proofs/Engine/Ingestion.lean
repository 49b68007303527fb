import SignalDesk.Proofs.Engine.Run
import SignalDesk.Proofs.Lines
import SignalDesk.Proofs.Metrics
import SignalDesk.Proofs.Notices

/-!
# Two ways into the engine

The records of a capture can be delivered by a replay, or the lines of the capture can be sent to the
engine as messages. Both ways lead to the same evaluations, the same engine and the same metrics, and
a line that is dropped leaves nothing behind but its count.
-/

namespace SignalDesk

namespace Metrics

/-- Two trails with the same metrics. -/
structure Same (first second : List Notice) : Prop where
  counters : ∀ counter, count counter first = count counter second
  gauges : ∀ series, gauge? series first = gauge? series second

/-- The metrics of `more` are those of `trail`, but that `drops` more records were dropped. -/
structure MoreDrops (drops : Nat) (more trail : List Notice) : Prop where
  counters : ∀ counter, count counter more =
    count counter trail + if counter = .recordsDropped then drops else 0
  gauges : ∀ series, gauge? series more = gauge? series trail

theorem MoreDrops.refl (trail : List Notice) : MoreDrops 0 trail trail :=
  ⟨fun _ => by simp, fun _ => rfl⟩

theorem MoreDrops.append {m n : Nat} {more more' trail trail' : List Notice}
    (h : MoreDrops m more trail) (h' : MoreDrops n more' trail') :
    MoreDrops (m + n) (more ++ more') (trail ++ trail') where
  counters counter := by
    rw [count_append, count_append, h.counters, h'.counters]
    split <;> omega
  gauges series := by rw [gauge?_append, gauge?_append, h.gauges, h'.gauges]

theorem MoreDrops.same {drops : Nat} {first second trail : List Notice}
    (h : MoreDrops drops first trail) (h' : MoreDrops drops second trail) : Same first second :=
  ⟨fun counter => by rw [h.counters, h'.counters], fun series => by rw [h.gauges, h'.gauges]⟩

private theorem moreDrops_of_line (line : LogLine) :
    MoreDrops 1 [.log line, .count .recordsDropped] [] where
  counters counter := by
    change List.count counter [.recordsDropped] = 0 + _
    rw [List.count_singleton, Nat.zero_add]
    simp only [beq_iff_eq, @eq_comm _ counter]
  gauges _ := rfl

end Metrics

open Metrics (Same MoreDrops)

private theorem Act.Yields.notices_bind {σ α β : Type} {act : Act σ α} {next : α → Act σ β}
    {s s' : σ} {a : α} (h : act.Yields s a s') :
    ((act >>= next) s).notices = (act s).notices ++ (next a s').notices := by
  change (Act.bind act next s).notices = _
  obtain ⟨hout, rfl⟩ := h
  unfold Act.bind
  revert hout
  rcases act s with ⟨outcome, state, notices⟩
  rintro rfl
  rfl

def Record.accepted? (message : String) : Option Record := (Record.parse message).toOption

def Record.isDropped (message : String) : Bool := (Record.accepted? message).isNone

theorem Record.accepted?_eq_some_iff {message : String} {record : Record} :
    accepted? message = some record ↔ parse message = .ok record :=
  Engine.Command.record?_message

namespace Capture

def messages (text : String) : List String :=
  (textLines text).filter fun line => !isBlankText line

/-- What is read of lines that are text: the accepted records, and a drop for each line that is
neither accepted nor blank. -/
theorem readLines_bytes (count : Nat) (lines : List TextLine) :
    let texts := (lines.map TextLine.content).filter fun line => !isBlankText line
    (readLines count (lines.map TextLine.bytes)).records = texts.filterMap Record.accepted? ∧
      MoreDrops (texts.countP Record.isDropped)
        (readLines count (lines.map TextLine.bytes)).notices [] := by
  induction lines generalizing count with
  | nil => exact ⟨rfl, MoreDrops.refl []⟩
  | cons line rest ih =>
    obtain ⟨hrecords, hdrops⟩ := ih (count + 1)
    simp only [List.map_cons, readLines, lineText?_bytes, List.filter_cons]
    by_cases hblank : isBlankText line.content = true
    · simp only [hblank, if_true, Bool.not_true, Bool.false_eq_true, if_false]
      exact ⟨hrecords, hdrops⟩
    · simp only [hblank, Bool.not_false, if_true, Bool.false_eq_true, if_false]
      cases hparse : Record.parse line.content with
      | ok record =>
        have haccepted : Record.accepted? line.content = some record :=
          Record.accepted?_eq_some_iff.2 hparse
        rw [List.filterMap_cons, List.countP_cons, haccepted]
        simp only [Record.isDropped, haccepted, Option.isNone_some, Bool.false_eq_true, if_false]
        exact ⟨congrArg _ hrecords, hdrops⟩
      | error error =>
        have haccepted : Record.accepted? line.content = none := by
          rw [Record.accepted?, hparse]
          rfl
        rw [List.filterMap_cons, List.countP_cons, haccepted]
        simp only [Record.isDropped, haccepted, Option.isNone_none, if_true]
        refine ⟨hrecords, ?_⟩
        rw [Nat.add_comm]
        exact (Metrics.moreDrops_of_line _).append hdrops

private theorem replay_text_records (text : String) :
    (replay text.toUTF8.data.toList).records = (messages text).filterMap Record.accepted? := by
  unfold replay
  rw [splitLines_toUTF8]
  exact (readLines_bytes 0 _).1

private theorem replay_text_notices (text : String) :
    MoreDrops ((messages text).countP Record.isDropped) (replay text.toUTF8.data.toList).notices [] := by
  unfold replay
  rw [splitLines_toUTF8]
  exact (readLines_bytes 0 _).2

def withoutDropped (text : String) : String :=
  keepLines (fun line => isBlankText line || !Record.isDropped line) text

private theorem messages_withoutDropped (text : String) :
    messages (withoutDropped text) = (messages text).filter fun line => !Record.isDropped line := by
  unfold messages withoutDropped
  rw [textLines_keepLines, List.filter_filter, List.filter_filter]
  apply List.filter_congr
  intro line _
  cases isBlankText line <;> simp

end Capture

namespace Engine

open Act Capture

variable {engine engine' : Engine} {message : String}

theorem processMessage_of_accepted {record : Record} (h : Record.accepted? message = some record) :
    processMessage message = process record := by
  rw [processMessage, (Record.parse_ok_iff.1 (Record.accepted?_eq_some_iff.1 h)).1]

theorem processMessage_of_dropped (h : Record.accepted? message = none) (engine : Engine) :
    ∃ line, processMessage message engine = ⟨.ok none, engine, [.log line, .count .recordsDropped]⟩ := by
  unfold processMessage
  cases hdecode : Record.decode? message with
  | none => exact ⟨_, rfl⟩
  | some record =>
    cases hfault : record.fault? with
    | none =>
      have hparse : Record.parse message = .ok record :=
        Record.parse_ok_iff.2 ⟨hdecode, by rw [Record.isValid, hfault]; rfl⟩
      rw [Record.accepted?_eq_some_iff.2 hparse] at h
      cases h
    | some fault =>
      have hvalid : ¬ record.isValid = true := by simp [Record.isValid, hfault]
      simp only [process, acceptance, hfault, if_neg hvalid]
      exact ⟨_, rfl⟩

private theorem openDesk_notes (instrument : String) :
    (openDesk instrument).Notes Notice.CountsNoRecord := by
  refine notes_bind notes_get fun engine => ?_
  cases engine.desk? instrument with
  | some desk => exact notes_pure _
  | none =>
    exact notes_bind (notes_notify (by simp)) fun _ => notes_bind (notes_lift _) fun desk =>
      notes_bind (notes_set _) fun _ => notes_pure _

/-- An accepted record is counted first, and no more record is counted in the work on it. -/
theorem process_notices {record : Record} (h : record.isValid = true) (engine : Engine) :
    ∃ rest, (process record engine).notices = .count .recordsProcessed :: rest ∧
      ∀ notice ∈ rest, notice.CountsNoRecord := by
  have hacceptance : acceptance record = [.count .recordsProcessed] := by
    rw [acceptance, Option.isNone_iff_eq_none.1 h]
  have hnotify : (Act.notify (acceptance record) : Act Engine Unit).Yields engine () engine := ⟨rfl, rfl⟩
  rw [process, hnotify.notices_bind, if_pos h]
  refine ⟨_, congrArg (· ++ _) hacceptance, ?_⟩
  refine notes_bind (openDesk_notes _) (fun desk => notes_bind notes_get fun engine => ?_) engine
  exact notes_bind (notes_focus (Desk.onRecord_notes _ _)) fun _ => notes_pure _

/-- What is dropped of the messages changes neither the evaluations nor the engine. -/
theorem handleAll_yields_iff {messages : List String} {evaluations : List Evaluation} :
    (handleAll (messages.map .message)).Yields engine evaluations engine' ↔
      (processAll (messages.filterMap Record.accepted?)).Yields engine evaluations engine' := by
  induction messages generalizing engine engine' evaluations with
  | nil => exact Iff.rfl
  | cons message messages ih =>
    rw [List.map_cons, List.filterMap_cons]
    cases haccepted : Record.accepted? message with
    | some record =>
      simp only [handleAll, handle, processAll, yields_bind_iff, ih,
        processMessage_of_accepted haccepted]
    | none =>
      obtain ⟨line, hdropped⟩ := processMessage_of_dropped haccepted engine
      have hyields {evaluation? : Option Evaluation} {e : Engine} :
          (processMessage message).Yields engine evaluation? e ↔ evaluation? = none ∧ e = engine := by
        rw [Yields, hdropped, Except.ok.injEq, eq_comm, @eq_comm _ engine]
      simp only [handleAll, handle, yields_bind_iff, hyields, yields_pure_iff, ih]
      constructor
      · rintro ⟨_, _, ⟨rfl, rfl⟩, rest, e, hrest, rfl, rfl⟩
        exact hrest
      · intro hrest
        exact ⟨none, engine, ⟨rfl, rfl⟩, evaluations, engine', hrest, rfl, rfl⟩

private theorem handleAll_moreDrops {messages : List String} {evaluations : List Evaluation}
    (h : (handleAll (messages.map .message)).Yields engine evaluations engine') :
    MoreDrops (messages.countP Record.isDropped) (handleAll (messages.map .message) engine).notices
      (processAll (messages.filterMap Record.accepted?) engine).notices := by
  induction messages generalizing engine evaluations with
  | nil => exact MoreDrops.refl []
  | cons message messages ih =>
    rw [List.map_cons, List.filterMap_cons, List.countP_cons]
    simp only [List.map_cons, handleAll, yields_bind_iff, yields_pure_iff] at h
    obtain ⟨evaluation?, e, hfirst, rest, _, hrest, rfl, rfl⟩ := h
    have hdrops := ih hrest
    have hsent : (handleAll (.message message :: messages.map .message) engine).notices =
        (processMessage message engine).notices ++ (handleAll (messages.map .message) e).notices := by
      rw [handleAll, hfirst.notices_bind, hrest.notices_bind]
      exact congrArg (_ ++ ·) (List.append_nil _)
    rw [hsent]
    cases haccepted : Record.accepted? message with
    | some record =>
      rw [processMessage_of_accepted haccepted]
      rw [handle, processMessage_of_accepted haccepted] at hfirst
      have hprocessed : (processAll (record :: messages.filterMap Record.accepted?) engine).notices =
          (process record engine).notices ++
            (processAll (messages.filterMap Record.accepted?) e).notices := by
        rw [processAll, hfirst.notices_bind, (handleAll_yields_iff.1 hrest).notices_bind]
        exact congrArg (_ ++ ·) (List.append_nil _)
      have hnot : Record.isDropped message = false := by rw [Record.isDropped, haccepted]; rfl
      rw [hprocessed, hnot, if_neg Bool.false_ne_true, Nat.add_comm]
      exact (MoreDrops.refl _).append hdrops
    | none =>
      obtain ⟨line, hdropped⟩ := processMessage_of_dropped haccepted engine
      rw [handle, Yields, hdropped] at hfirst
      obtain ⟨-, rfl⟩ := hfirst
      have hdrop : Record.isDropped message = true := by rw [Record.isDropped, haccepted]; rfl
      rw [hdropped, hdrop, if_pos rfl, Nat.add_comm]
      exact (Metrics.moreDrops_of_line line).append hdrops

/-- Every record that is processed is counted, and leads to one evaluation. -/
theorem processAll_counts {records : List Record} {evaluations : List Evaluation}
    (hvalid : ∀ record ∈ records, record.isValid = true)
    (h : (processAll records).Yields engine evaluations engine') :
    evaluations.length = records.length ∧
      Metrics.count .recordsProcessed (processAll records engine).notices = records.length ∧
      Metrics.count .recordsDropped (processAll records engine).notices = 0 := by
  induction records generalizing engine evaluations with
  | nil =>
    obtain ⟨rfl, -⟩ := yields_pure_iff.1 h
    exact ⟨rfl, rfl, rfl⟩
  | cons record records ih =>
    obtain ⟨hfirstValid, hrestValid⟩ := List.forall_mem_cons.1 hvalid
    simp only [processAll, yields_bind_iff, yields_pure_iff] at h
    obtain ⟨evaluation?, e, hfirst, rest, _, hrest, rfl, rfl⟩ := h
    obtain ⟨hlength, hprocessed, hdropped⟩ := ih hrestValid hrest
    obtain ⟨work, hnotices, hwork⟩ := process_notices hfirstValid engine
    have hall : (processAll (record :: records) engine).notices =
        .count .recordsProcessed :: work ++ (processAll records e).notices := by
      rw [processAll, hfirst.notices_bind, hrest.notices_bind, hnotices]
      exact congrArg (_ ++ ·) (List.append_nil _)
    have hone : evaluation?.toList.length = 1 := by
      rcases process_plan hfirst with ⟨hinvalid, -, -⟩ | ⟨-, _, evaluation, _, _, rfl, -⟩
      · rw [hfirstValid] at hinvalid
        cases hinvalid
      · rfl
    have hsplit : (.count .recordsProcessed :: work : List Notice) = [.count .recordsProcessed] ++ work := rfl
    refine ⟨by simp only [List.length_append, List.length_cons]; omega, ?_, ?_⟩
    · rw [hall, hsplit, Metrics.count_append, Metrics.count_append, hprocessed,
        Metrics.count_eq_zero fun notice hnotice => (hwork notice hnotice).1, List.length_cons]
      change 1 + 0 + _ = _
      omega
    · rw [hall, hsplit, Metrics.count_append, Metrics.count_append, hdropped,
        Metrics.count_eq_zero fun notice hnotice => (hwork notice hnotice).2]
      rfl

def deliver (text : String) : Act Engine (List Evaluation) := do
  let feed := replay text.toUTF8.data.toList
  Act.notify feed.notices
  processAll feed.records

/-- The lines of a text that are not blank, each as a message. -/
def sendLines (text : String) : Act Engine (List Evaluation) :=
  handleAll ((messages text).map .message)

private theorem deliver_yields_iff {text : String} {evaluations : List Evaluation} :
    (deliver text).Yields engine evaluations engine' ↔
      (processAll ((messages text).filterMap Record.accepted?)).Yields engine evaluations engine' := by
  rw [deliver, replay_text_records]
  simp only [yields_bind_iff, yields_notify_iff]
  constructor
  · rintro ⟨_, _, rfl, h⟩
    exact h
  · intro h
    exact ⟨(), engine, rfl, h⟩

private theorem deliver_moreDrops (text : String) (engine : Engine) :
    MoreDrops ((messages text).countP Record.isDropped) (deliver text engine).notices
      (processAll ((messages text).filterMap Record.accepted?) engine).notices := by
  have hnotify : (Act.notify (replay text.toUTF8.data.toList).notices : Act Engine Unit).Yields engine ()
      engine := ⟨rfl, rfl⟩
  rw [deliver, hnotify.notices_bind, replay_text_records]
  exact (replay_text_notices text).append (MoreDrops.refl _)

private theorem accepted_isValid {messages : List String} :
    ∀ record ∈ messages.filterMap Record.accepted?, record.isValid = true := by
  intro record hrecord
  obtain ⟨message, -, haccepted⟩ := List.mem_filterMap.1 hrecord
  exact (Record.parse_ok_iff.1 (Record.accepted?_eq_some_iff.1 haccepted)).2

private theorem filterMap_accepted?_filter (messages : List String) :
    (messages.filter fun message => !Record.isDropped message).filterMap Record.accepted? =
      messages.filterMap Record.accepted? := by
  rw [List.filterMap_filter]
  apply List.filterMap_congr
  intro message _
  cases haccepted : Record.accepted? message <;> simp [Record.isDropped, haccepted]

private theorem countP_isDropped_filter (messages : List String) :
    (messages.filter fun message => !Record.isDropped message).countP Record.isDropped = 0 := by
  rw [List.countP_eq_zero]
  intro message hmessage
  simpa using (List.mem_filter.1 hmessage).2

private theorem length_accepted_add_dropped (messages : List String) :
    (messages.filterMap Record.accepted?).length + messages.countP Record.isDropped =
      messages.length := by
  rw [List.length_filterMap_eq_countP, List.length_eq_countP_add_countP Record.isDropped, Nat.add_comm]
  congr 2
  funext message
  cases haccepted : Record.accepted? message <;> simp [Record.isDropped, haccepted]

/--
The two ways into the engine agree, and what is dropped of a text is invisible. Replaying a text and
sending its lines that are not blank lead to the same evaluations and the same engine, and in runs
that are not given up to the same metrics, in which every such line is either processed or dropped.
The records that are delivered are all valid, and each of them is evaluated. Without the lines that
are dropped, the run and its metrics are the same except for the count of drops, which is zero.
-/
theorem ingestion_paths_agree (engine : Engine) (text : String) :
    (∀ evaluations engine', (deliver text).Yields engine evaluations engine' ↔
      (sendLines text).Yields engine evaluations engine') ∧
    (∀ record ∈ (replay text.toUTF8.data.toList).records, record.isValid = true) ∧
    ∀ evaluations engine', (sendLines text).Yields engine evaluations engine' →
      let sent := (sendLines text engine).notices
      let kept := (sendLines (withoutDropped text) engine).notices
      Same (deliver text engine).notices sent ∧
      evaluations.length = (replay text.toUTF8.data.toList).records.length ∧
      Metrics.count .recordsProcessed sent + Metrics.count .recordsDropped sent =
        (messages text).length ∧
      (sendLines (withoutDropped text)).Yields engine evaluations engine' ∧
      Metrics.count .recordsDropped kept = 0 ∧
      MoreDrops (Metrics.count .recordsDropped sent) sent kept := by
  refine ⟨fun evaluations engine' => deliver_yields_iff.trans handleAll_yields_iff.symm, ?_, ?_⟩
  · rw [replay_text_records]
    exact accepted_isValid
  intro evaluations engine' h
  have hrun := handleAll_yields_iff.1 h
  have hsent : MoreDrops ((messages text).countP Record.isDropped) (sendLines text engine).notices
      (processAll ((messages text).filterMap Record.accepted?) engine).notices := handleAll_moreDrops h
  obtain ⟨hlength, hprocessed, hdropped⟩ := processAll_counts accepted_isValid hrun
  -- sending the other lines is the same run of accepted records
  have hkept : (sendLines (withoutDropped text)).Yields engine evaluations engine' := by
    rw [sendLines, messages_withoutDropped, handleAll_yields_iff, filterMap_accepted?_filter]
    exact hrun
  have hsame : MoreDrops 0 (sendLines (withoutDropped text) engine).notices
      (processAll ((messages text).filterMap Record.accepted?) engine).notices := by
    have hmore := handleAll_moreDrops hkept
    rwa [messages_withoutDropped, filterMap_accepted?_filter, countP_isDropped_filter,
      ← messages_withoutDropped] at hmore
  have hdrops : Metrics.count .recordsDropped (sendLines text engine).notices =
      (messages text).countP Record.isDropped := by
    rw [hsent.counters, hdropped, if_pos rfl, Nat.zero_add]
  refine ⟨(deliver_moreDrops text engine).same hsent, ?_, ?_, hkept, ?_, ?_⟩
  · rw [hlength, replay_text_records]
  · rw [hdrops, hsent.counters, hprocessed]
    exact length_accepted_add_dropped (messages text)
  · rw [hsame.counters, hdropped, if_pos rfl]
  · rw [hdrops]
    exact ⟨fun counter => by rw [hsent.counters, hsame.counters]; simp,
      fun series => by rw [hsent.gauges, hsame.gauges]⟩

/-- A text with a blank line, a line that is no JSON and a trade without contracts. -/
theorem ingestion_paths_agree_of_bad_lines :
    let text := "[\"trade\", \"RAIN\", 0, \"yes\", 10, 40]\r\n \n]\n" ++
      "[\"trade\", \"SNOW\", 1, \"yes\", 0, 40]\n[\"trade\", \"RAIN\", 2, \"no\", 20, 60]"
    ∃ engine evaluations engine', Engine.ofConfig {} = .ok engine ∧
      (sendLines text).Yields engine evaluations engine' ∧
      (deliver text).Yields engine evaluations engine' ∧ evaluations.length = 2 ∧
      (sendLines (withoutDropped text)).Yields engine evaluations engine' := by
  intro text
  have hstart : ∃ engine, ofConfig {} = .ok engine ∧
      (sendLines text engine).outcome.toOption.any (fun evaluations => evaluations.length = 2) = true :=
    exists_ok_of_any (by decide +kernel)
  obtain ⟨engine, hengine, hrun⟩ := hstart
  obtain ⟨evaluations, hout, hlength⟩ := exists_ok_of_any hrun
  have hsent := yields_of_outcome hout
  obtain ⟨hiff, -, hall⟩ := ingestion_paths_agree engine text
  obtain ⟨-, -, -, hkept, -⟩ := hall evaluations _ hsent
  exact ⟨engine, evaluations, _, hengine, hsent, (hiff _ _).2 hsent, hlength, hkept⟩

end Engine

end SignalDesk
