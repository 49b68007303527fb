import Mathlib.Data.List.TakeDrop
import Mathlib.Data.List.TakeWhile
import SignalDesk.Capture
import SignalDesk.Proofs.Numeral
import SignalDesk.Proofs.Record

/-!
# What a replay delivers

A replay delivers the records of the lines in their order, up to the first line that is not UTF-8. A
line of text that holds no valid record, blank or not, is passed over without a trace.
-/

namespace SignalDesk

namespace Json

variable {float : Written → Data}

private theorem readNumber?_of_whiteSpace {text : List Char} (h : ∀ c ∈ text, isWhiteSpace c = true) :
    readNumber? float text = none := by
  cases text with
  | nil => rfl
  | cons c rest =>
    have hc := h c List.mem_cons_self
    have hdigit := not_isDigit_of_isWhiteSpace hc
    have hminus : c ≠ '-' := by
      rintro rfl
      cases hc
    have hzero : c ≠ '0' := by
      rintro rfl
      cases hc
    simp [readNumber?, readUnsigned?, List.span_eq_takeWhile_dropWhile, hminus, hzero, hdigit]

private theorem readValue?_of_whiteSpace {text : List Char} (h : ∀ c ∈ text, isWhiteSpace c = true)
    (fuel : Nat) : readValue? float fuel text = none := by
  cases fuel with
  | zero => rfl
  | succ fuel =>
    have hrest : ∀ c ∈ skipBlanks text, isWhiteSpace c = true := by
      intro c hc
      exact h c ((List.dropWhile_sublist _).subset hc)
    have hhead : ∀ c rest, isWhiteSpace c = false → skipBlanks text ≠ c :: rest := by
      intro c rest hc heq
      rw [hrest c (heq ▸ List.mem_cons_self)] at hc
      cases hc
    unfold readValue?
    -- every form but a number starts with a character of its own
    split
    case h_7 => exact readNumber?_of_whiteSpace hrest
    all_goals
      rename_i heq
      exact absurd heq (hhead _ _ rfl)

private theorem read?_of_blank {text : String} (h : isBlankText text = true) :
    read? text float = none := by
  have hvalue : readValue? float (2 * text.toList.length + 2) text.toList = none :=
    readValue?_of_whiteSpace (List.all_eq_true.1 h) _
  unfold read?
  simp [hvalue]

end Json

private theorem Record.parse_of_blank {text : String} (h : isBlankText text = true) :
    Record.parse text = .error .malformed := by
  have hdecode : Record.decode? text = none := by
    unfold Record.decode?
    rw [Json.read?_of_blank h]
    rfl
  unfold Record.parse
  rw [hdecode]

namespace Capture

def lineFeed : UInt8 := 10

def carriageReturn : UInt8 := 13

def chopReturn (line : List UInt8) : List UInt8 :=
  if line.getLast? = some carriageReturn then line.dropLast else line

/-- The lines of a file, without their ends. What follows the last line feed is a line if it is not
empty. -/
def lines (content : List UInt8) : List (List UInt8) :=
  let parts := content.splitOn lineFeed
  parts.dropLast.map chopReturn ++ (parts.getLast?.filter fun last => !last.isEmpty).toList

def isText (line : List UInt8) : Bool := (String.fromUTF8? ⟨line.toArray⟩).isSome

def record? (line : List UInt8) : Option Record := do
  (Record.parse (← String.fromUTF8? ⟨line.toArray⟩)).toOption

private theorem lines_of_not_mem {line : List UInt8} (h : lineFeed ∉ line) :
    lines line = if line.isEmpty then [] else [line] := by
  unfold lines
  rw [List.splitOn_eq_singleton h]
  cases line <;> rfl

private theorem lines_append_cons (before rest : List UInt8) :
    lines (before ++ lineFeed :: rest) = (before.splitOn lineFeed).map chopReturn ++ lines rest := by
  have hne := List.splitOn_ne_nil lineFeed rest
  simp only [lines]
  rw [List.splitOn_append_cons_self, List.dropLast_append_of_ne_nil hne,
    List.getLast?_append, List.getLast?_eq_some_getLast hne, Option.some_or, List.map_append,
    List.append_assoc]

private theorem lines_cons {line : List UInt8} (h : lineFeed ∉ line) (rest : List UInt8) :
    lines (line ++ lineFeed :: rest) = chopReturn line :: lines rest := by
  rw [lines_append_cons, List.splitOn_eq_singleton h]
  rfl

private theorem lines_append {before : List UInt8}
    (h : before = [] ∨ before.getLast? = some lineFeed) (rest : List UInt8) :
    lines (before ++ rest) = lines before ++ lines rest := by
  rcases h with rfl | h
  · rfl
  · obtain ⟨start, rfl⟩ := List.getLast?_eq_some_iff.1 h
    rw [List.append_assoc, List.singleton_append, lines_append_cons, lines_append_cons]
    rw [lines_of_not_mem (List.not_mem_nil), List.isEmpty_nil, if_pos rfl, List.append_nil]

/-- What is decoded of a line that was split off, given whether a line feed ended it. -/
def lineBytes (line : List UInt8 × Bool) : List UInt8 :=
  if line.2 then chopReturn line.1 else line.1

theorem lineText?_eq (line : List UInt8 × Bool) :
    lineText? line = String.fromUTF8? ⟨(lineBytes line).toArray⟩ := by
  obtain ⟨bytes, ended⟩ := line
  cases ended with
  | false => rfl
  | true =>
    apply congrArg fun bytes : List UInt8 => String.fromUTF8? ⟨bytes.toArray⟩
    show _ = chopReturn bytes
    unfold chopReturn
    by_cases h : bytes.getLast? = some carriageReturn
    · rw [if_pos h]
      apply if_pos
      simp [h, carriageReturn]
    · rw [if_neg h]
      apply if_neg
      simpa [carriageReturn] using h

theorem splitLines_cons (current : List UInt8) (byte : UInt8) (bytes : List UInt8) :
    splitLines current (byte :: bytes) =
      if byte = lineFeed then (current.reverse, true) :: splitLines [] bytes
      else splitLines (byte :: current) bytes :=
  rfl

private theorem splitLines_eq_lines {current : List UInt8} (h : lineFeed ∉ current)
    (content : List UInt8) :
    (splitLines current content).map lineBytes = lines (current.reverse ++ content) := by
  induction content generalizing current with
  | nil =>
    rw [List.append_nil, lines_of_not_mem (by simpa using h)]
    cases current <;> simp [splitLines, lineBytes]
  | cons byte bytes ih =>
    rw [splitLines_cons]
    by_cases hbyte : byte = lineFeed
    · subst hbyte
      rw [if_pos rfl, List.map_cons, ih List.not_mem_nil, lines_cons (by simpa using h)]
      rfl
    · rw [if_neg hbyte, ih (by simp [h, Ne.symm hbyte])]
      simp

private theorem record?_of_parse_error {line : List UInt8} {text : String} {error : RecordError}
    (htext : String.fromUTF8? ⟨line.toArray⟩ = some text) (h : Record.parse text = .error error) :
    record? line = none := by
  simp [record?, htext, h, Except.toOption]

private theorem readLines_records (count : Nat) (split : List (List UInt8 × Bool)) :
    (readLines count split).records =
      ((split.map lineBytes).takeWhile isText).filterMap record? := by
  induction split generalizing count with
  | nil => rfl
  | cons line rest ih =>
    unfold readLines
    rw [lineText?_eq, List.map_cons, List.takeWhile_cons]
    cases htext : String.fromUTF8? ⟨(lineBytes line).toArray⟩ with
    | none => simp [isText, htext]
    | some text =>
      have hisText : isText (lineBytes line) = true := by simp [isText, htext]
      rw [if_pos hisText, List.filterMap_cons]
      by_cases hblank : isBlankText text = true
      · rw [record?_of_parse_error htext (Record.parse_of_blank hblank)]
        simp only [hblank, if_true]
        apply ih
      · simp only [hblank]
        cases hparse : Record.parse text with
        | error error =>
          rw [record?_of_parse_error htext hparse]
          apply ih
        | ok record =>
          have hrecord : record? (lineBytes line) = some record := by
            simp [record?, htext, hparse, Except.toOption]
          rw [hrecord]
          apply congrArg (List.cons record)
          apply ih

private theorem readLines_failure (count : Nat) (split : List (List UInt8 × Bool)) :
    (readLines count split).failure = none ↔ ∀ line ∈ split.map lineBytes, isText line = true := by
  induction split generalizing count with
  | nil => simp [readLines]
  | cons line rest ih =>
    unfold readLines
    rw [lineText?_eq, List.map_cons, List.forall_mem_cons]
    cases htext : String.fromUTF8? ⟨(lineBytes line).toArray⟩ with
    | none => simp [isText, htext]
    | some text =>
      have hisText : isText (lineBytes line) = true := by simp [isText, htext]
      rw [← ih (count + 1)]
      simp only [hisText, true_and]
      by_cases hblank : isBlankText text = true
      · simp only [hblank, if_true]
      · simp only [hblank]
        cases Record.parse text <;> rfl

private theorem replay_records (content : List UInt8) :
    (replay content).records = ((lines content).takeWhile isText).filterMap record? := by
  unfold replay
  rw [readLines_records, splitLines_eq_lines List.not_mem_nil]
  rfl

private theorem replay_failure (content : List UInt8) :
    (replay content).failure = none ↔ ∀ line ∈ lines content, isText line = true := by
  unfold replay
  rw [readLines_failure, splitLines_eq_lines List.not_mem_nil]
  rfl

/-- A line of text without a record can be left out. -/
theorem delivered_middle {line : List UInt8} (htext : isText line = true)
    (hnone : record? line = none) (before after : List (List UInt8)) :
    ((before ++ line :: after).takeWhile isText).filterMap record? =
      ((before ++ after).takeWhile isText).filterMap record? := by
  induction before with
  | nil => simp [htext, hnone]
  | cons first rest ih =>
    by_cases hfirst : isText first = true
    · simp only [List.cons_append, List.takeWhile_cons, hfirst, if_true, List.filterMap_cons, ih]
    · simp [hfirst]

/-- The records of a file of text are those of its lines, in their order. Of any file the records up
to the first line that is not UTF-8 are delivered, and the read fails exactly when there is one. A
line of text without a record has no effect on the lines after it. -/
theorem replay_delivers (content : List UInt8) :
    (replay content).records = ((lines content).takeWhile isText).filterMap record? ∧
    ((replay content).failure = none ↔ ∀ line ∈ lines content, isText line = true) ∧
    ((∀ line ∈ lines content, isText line = true) →
      (replay content).records = (lines content).filterMap record?) ∧
    ∀ before line after : List UInt8, content = before ++ line ++ lineFeed :: after →
      before = [] ∨ before.getLast? = some lineFeed → lineFeed ∉ line →
      isText (chopReturn line) = true → record? (chopReturn line) = none →
        (replay content).records = (replay (before ++ after)).records := by
  refine ⟨replay_records content, replay_failure content, ?_, ?_⟩
  · intro htext
    rw [replay_records, List.takeWhile_eq_self_iff.2 htext]
  · rintro before line after rfl hbefore hline htext hnone
    rw [replay_records, replay_records, List.append_assoc, lines_append hbefore,
      lines_append hbefore, lines_cons hline]
    exact delivered_middle htext hnone _ _

/-- A file with a blank line, a line that is no JSON, a record that is not valid and a last line
without an end. -/
theorem replay_delivers_of_bad_lines :
    let before := "[\"trade\", \"RAIN\", 0, \"yes\", 10, 40]\r\n \n".toUTF8.toList
    let line := "[\"trade\", \"RAIN\", 1, \"yes\", 0, 40]".toUTF8.toList
    let after := "]\n[\"trade\", \"RAIN\", 2, \"no\", 20, 60]".toUTF8.toList
    (replay (before ++ line ++ lineFeed :: after)).records =
        [.trade ⟨"RAIN", 0, .yes, 10, 40⟩, .trade ⟨"RAIN", 2, .no, 20, 60⟩] ∧
      (replay (before ++ line ++ lineFeed :: after)).records = (replay (before ++ after)).records := by
  intro before line after
  obtain ⟨-, -, hall, hwithout⟩ := replay_delivers (before ++ line ++ lineFeed :: after)
  constructor
  · rw [hall (by decide +kernel)]
    decide +kernel
  · exact hwithout before line after rfl (by decide +kernel) (by decide +kernel) (by decide +kernel)
      (by decide +kernel)

/-- A line with a byte that is not UTF-8 keeps the record of the next line from being delivered. -/
theorem bad_line_ends_replay :
    let content : List UInt8 :=
      255 :: lineFeed :: "[\"trade\", \"RAIN\", 0, \"yes\", 10, 40]\n".toUTF8.toList
    (lines content).filterMap record? = [.trade ⟨"RAIN", 0, .yes, 10, 40⟩] ∧
      (replay content).records = [] := by
  decide +kernel

end Capture

end SignalDesk
