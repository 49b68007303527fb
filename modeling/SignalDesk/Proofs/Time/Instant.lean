import SignalDesk.Proofs.Numeral
import SignalDesk.Proofs.Record
import SignalDesk.Proofs.Time.Calendar
import SignalDesk.Time.Instant

/-!
# Instants from their text

Every instant that the calendar has is read back from its text: any year of the calendar, whole
seconds or a fraction of up to nine places, leap seconds included. What is read from a text, from
whatever offset, is such an instant.
-/

namespace SignalDesk

private theorem trimStart_cons {c : Char} (h : isWhiteSpace c = false) (text : List Char) :
    trimStart (c :: text) = c :: text :=
  List.dropWhile_cons_of_neg (by simp [h])

private theorem trimStart_digit {c : Char} (h : c.isDigit = true) (text : List Char) :
    trimStart (c :: text) = c :: text := by
  refine trimStart_cons (Bool.eq_false_iff.2 fun hspace => ?_) text
  rw [not_isDigit_of_isWhiteSpace hspace] at h
  cases h

namespace Instant

section Padded

variable {width n : Nat}

theorem isDigit_of_mem_padded {c : Char} (h : c ∈ padded width n) : c.isDigit = true :=
  (List.mem_append.1 h).elim isDigit_of_mem_zeros FloatText.isDigit_of_mem_decimalDigits

theorem digitsValue_padded : digitsValue (padded width n) = n :=
  (digitsValue_zeros_append _ _).trans (FloatText.digitsValue_decimalDigits n)

private theorem length_padded (hwidth : 0 < width) (h : n < 10 ^ width) :
    (padded width n).length = width := by
  have hlength : (FloatText.decimalDigits n).length ≤ width :=
    (Nat.length_toDigits_le_iff (by decide) hwidth).2 h
  rw [padded, List.length_append, List.length_replicate]
  omega

private theorem padded_eq_cons (width n : Nat) :
    ∃ c text, padded width n = c :: text ∧ c.isDigit = true := by
  have hne : padded width n ≠ [] :=
    List.append_ne_nil_of_right_ne_nil _ (FloatText.decimalDigits_ne_nil n)
  obtain ⟨c, text, hcons⟩ := List.exists_cons_of_ne_nil hne
  exact ⟨c, text, hcons, isDigit_of_mem_padded (hcons ▸ List.mem_cons_self)⟩

end Padded

private theorem readNumber?_append {width : Option Nat} {run rest : List Char}
    (hrun : ∀ c ∈ run, c.isDigit = true) (hne : run ≠ []) (hwidth : ∀ w ∈ width, run.length ≤ w)
    (hrest : NotNext Char.isDigit rest) :
    readNumber? width (run ++ rest) = some (digitsValue run, rest) := by
  have htake := takeWhile_append hrun hrest
  unfold readNumber?
  cases width with
  | none => simp only [htake, List.isEmpty_iff, if_neg hne, List.drop_left]
  | some w =>
    have hkept : run.take w = run := List.take_of_length_le (hwidth w rfl)
    simp only [htake, hkept, List.isEmpty_iff, if_neg hne, List.drop_left]

private theorem readNumber?_padded {width : Option Nat} {digits n : Nat} {rest : List Char}
    (hwidth : ∀ w ∈ width, (padded digits n).length ≤ w) (hrest : NotNext Char.isDigit rest) :
    readNumber? width (padded digits n ++ rest) = some (n, rest) := by
  obtain ⟨c, text, hcons, -⟩ := padded_eq_cons digits n
  rw [readNumber?_append (fun c => isDigit_of_mem_padded) (hcons ▸ List.cons_ne_nil c text) hwidth hrest,
    digitsValue_padded]

private theorem readField?_padded {n : Nat} (h : n < 100) {rest : List Char}
    (hrest : NotNext Char.isDigit rest) : readField? (padded 2 n ++ rest) = some (n, rest) := by
  have hlength : (padded 2 n).length = 2 := length_padded (by decide) h
  have hread : readNumber? (some 2) (padded 2 n ++ rest) = some (n, rest) :=
    readNumber?_padded (fun w hw => Option.some.inj hw ▸ hlength.le) hrest
  obtain ⟨c, text, hcons, hc⟩ := padded_eq_cons 2 n
  rw [hcons, List.cons_append] at hread ⊢
  rw [readField?, trimStart_digit hc, hread]

private theorem readMark?_cons {mark : Char} (h : isWhiteSpace mark = false) (text : List Char) :
    readMark? mark (mark :: text) = some text := by
  rw [readMark?, trimStart_cons h]
  simp

private theorem readYear?_yearText (year : Int) {rest : List Char}
    (hrest : NotNext Char.isDigit rest) :
    readYear? (yearText year ++ rest) = some (year, rest) := by
  have hsigned : readNumber? none (padded 4 year.natAbs ++ rest) = some (year.natAbs, rest) :=
    readNumber?_padded (fun w hw => by cases hw) hrest
  unfold yearText
  split
  · rename_i hplain
    have hlength : (padded 4 year.toNat).length = 4 := length_padded (by decide) (by omega)
    have hread : readNumber? (some 4) (padded 4 year.toNat ++ rest) = some (year.toNat, rest) :=
      readNumber?_padded (fun w hw => Option.some.inj hw ▸ hlength.le) hrest
    obtain ⟨c, text, hcons, hc⟩ := padded_eq_cons 4 year.toNat
    have hminus : c ≠ '-' := by rintro rfl; cases hc
    have hplus : c ≠ '+' := by rintro rfl; cases hc
    rw [hcons, List.cons_append] at hread ⊢
    rw [readYear?, trimStart_digit hc]
    split
    · rename_i hsign
      exact absurd (List.cons.inj hsign).1 hminus
    · rename_i hsign
      exact absurd (List.cons.inj hsign).1 hplus
    · have hvalue : (year.toNat : Int) = year := by omega
      simp only [hread, Option.bind_eq_bind, Option.bind_some, hvalue]
      rfl
  · split
    · rename_i hnegative
      have hvalue : -(year.natAbs : Int) = year := by omega
      rw [List.cons_append, readYear?, trimStart_cons rfl]
      simp only [hsigned, Option.bind_eq_bind, Option.bind_some, hvalue]
      rfl
    · rename_i hpositive
      have hvalue : (year.natAbs : Int) = year := by omega
      rw [List.cons_append, readYear?, trimStart_cons rfl]
      simp only [hsigned, Option.bind_eq_bind, Option.bind_some, hvalue]
      rfl

private theorem readDate?_text {date : Date} (hmonth : date.month < 100) (hday : date.day < 100)
    {rest : List Char} (hrest : NotNext Char.isDigit rest) :
    readDate? (yearText date.year ++ '-' :: (padded 2 date.month ++ '-' :: (padded 2 date.day ++ rest))) =
      some (date, rest) := by
  have hend (text : List Char) : NotNext Char.isDigit ('-' :: text) := notNext_cons rfl
  have hmark (text : List Char) : readMark? '-' ('-' :: text) = some text := readMark?_cons rfl text
  simp only [readDate?, readYear?_yearText _ (hend _), hmark, readField?_padded hmonth (hend _),
    readField?_padded hday hrest, Option.bind_eq_bind, Option.bind_some]
  rfl

private theorem readFraction?_padded {width n : Nat} (hwidth : 0 < width) (hnine : width ≤ 9)
    (h : n < 10 ^ width) {rest : List Char} (hrest : NotNext Char.isDigit rest) :
    readFraction? ('.' :: padded width n ++ rest) = some (n * 10 ^ (9 - width), rest) := by
  have htake : (padded width n ++ rest).takeWhile Char.isDigit = padded width n :=
    takeWhile_append (fun c => isDigit_of_mem_padded) hrest
  have hlength := length_padded hwidth h
  have hkept : (padded width n).take 9 = padded width n := List.take_of_length_le (by omega)
  have hne : padded width n ≠ [] := by
    obtain ⟨c, text, hcons, -⟩ := padded_eq_cons width n
    exact hcons ▸ List.cons_ne_nil c text
  rw [List.cons_append, readFraction?]
  simp only [htake, hkept, List.isEmpty_iff, if_neg hne, digitsValue_padded, List.drop_left]
  rw [hlength]
  rfl

private theorem readFraction?_fractionText {nano : Nat} (h : nano < 1000000000) (rest : List Char) :
    readFraction? (fractionText nano ++ 'Z' :: rest) = some (nano, 'Z' :: rest) := by
  have hrest : NotNext Char.isDigit ('Z' :: rest) := notNext_cons rfl
  unfold fractionText
  split
  · rename_i hnone
    rw [hnone]
    rfl
  · split
    · rw [readFraction?_padded (by decide) (by decide) (by omega) hrest]
      congr 2
      omega
    · split
      · rw [readFraction?_padded (by decide) (by decide) (by omega) hrest]
        congr 2
        omega
      · rw [readFraction?_padded (by decide) (by decide) (by omega) hrest]
        simp

private theorem readClock?_text {clock : Clock} (hhour : clock.hour < 100)
    (hminute : clock.minute < 100)
    (hsecond : clock.second < 100) (hnano : clock.nano < 1000000000) :
    readClock? (padded 2 clock.hour ++ ':' :: (padded 2 clock.minute ++ ':' ::
      (padded 2 clock.second ++ (fractionText clock.nano ++ ['Z'])))) = some (clock, ['Z']) := by
  have hend (text : List Char) : NotNext Char.isDigit (':' :: text) := notNext_cons rfl
  have hmark (text : List Char) : readMark? ':' (':' :: text) = some text := readMark?_cons rfl text
  have hfraction : NotNext Char.isDigit (fractionText clock.nano ++ ['Z']) := by
    unfold fractionText
    repeat' split
    all_goals exact notNext_cons rfl
  simp only [readClock?, readField?_padded hhour (hend _), hmark, readField?_padded hminute (hend _),
    readField?_padded hsecond hfraction,
    readFraction?_fractionText hnano, Option.bind_eq_bind, Option.bind_some]
  rfl

/-- What the calendar has for an instant: it is between its ends, and the nanoseconds stay within the
second, or within a leap second at the end of a minute. -/
structure Proper (instant : Instant) : Prop where
  inRange : instant.inRange = true
  nano_lt : instant.nano < 1000000000 ∨ instant.nano < 2000000000 ∧ instant.second % 60 = 59

theorem inRange_iff {instant : Instant} :
    instant.inRange = true ↔ earliest / 1000 ≤ instant.second ∧ instant.second ≤ latest / 1000 := by
  simp [Instant.inRange]

theorem proper_ofTimestamp {ts : Timestamp} (h : Timestamp.inRange ts = true) :
    (ofTimestamp ts).Proper := by
  obtain ⟨hearly, hlate⟩ := Timestamp.inRange_iff.1 h
  have hrange : earliest / 1000 ≤ ts / 1000 ∧ ts / 1000 ≤ latest / 1000 :=
    ⟨Int.ediv_le_ediv (by decide) hearly, Int.ediv_le_ediv (by decide) hlate⟩
  refine ⟨inRange_iff.2 hrange, .inl ?_⟩
  simp only [ofTimestamp]
  omega

def clock (instant : Instant) : Clock :=
  let time := (instant.second % 86400).toNat
  ⟨time / 3600, time / 60 % 60, time % 60 + instant.nano / 1000000000, instant.nano % 1000000000⟩

theorem toNanos_ofTimestamp (ts : Timestamp) : (ofTimestamp ts).toNanos = ts * 1000000 := by
  have hsplit := Int.mul_ediv_add_emod ts 1000
  have hnonneg := Int.emod_nonneg ts (show (1000 : Int) ≠ 0 by decide)
  simp only [toNanos, ofTimestamp, Int.natCast_mul, Int.toNat_of_nonneg hnonneg]
  grind

theorem toChars_eq (instant : Instant) :
    instant.toChars =
      yearText (Date.ofDays (instant.second / 86400)).year ++
        '-' :: (padded 2 (Date.ofDays (instant.second / 86400)).month ++
        '-' :: (padded 2 (Date.ofDays (instant.second / 86400)).day ++
        'T' :: (padded 2 instant.clock.hour ++ ':' :: (padded 2 instant.clock.minute ++
        ':' :: (padded 2 instant.clock.second ++ (fractionText instant.clock.nano ++ ['Z'])))))) := by
  simp [toChars, clock]

private theorem clock_bounds {instant : Instant} (h : instant.Proper) :
    instant.clock.hour ≤ 23 ∧ instant.clock.minute ≤ 59 ∧ instant.clock.second ≤ 60 ∧
      instant.clock.nano < 1000000000 := by
  have hnano := h.nano_lt
  simp only [clock]
  omega

private theorem clock_time {instant : Instant} (h : instant.Proper) :
    (instant.clock.hour * 3600 + instant.clock.minute * 60 +
        (if instant.clock.second = 60 then 59 else instant.clock.second) : Nat) =
      instant.second % 86400 ∧
    (if instant.clock.second = 60 then instant.clock.nano + 1000000000 else instant.clock.nano) =
      instant.nano := by
  have hnano := h.nano_lt
  by_cases hleap : instant.clock.second = 60
  · simp only [if_pos hleap]
    simp only [clock] at hleap ⊢
    omega
  · simp only [if_neg hleap]
    simp only [clock] at hleap ⊢
    omega

/-- An instant is what its own date and time of day show at Greenwich. -/
theorem ofLocal?_clock {instant : Instant} (h : instant.Proper) :
    ofLocal? (Date.ofDays (instant.second / 86400)) instant.clock 0 = some instant := by
  obtain ⟨hhour, hminute, hsecond, -⟩ := clock_bounds h
  obtain ⟨htime, hnano⟩ := clock_time h
  have hdays : instant.second / 86400 * 86400 + instant.second % 86400 = instant.second := by omega
  have hgiven : ((Date.ofDays (instant.second / 86400)).isValid && instant.clock.hour ≤ 23 &&
      instant.clock.minute ≤ 59 && instant.clock.second ≤ 60) = true := by
    simp [Date.isValid_ofDays, hhour, hminute, hsecond]
  unfold ofLocal?
  rw [if_pos hgiven]
  simp only [htime, hnano, Date.toDays_ofDays, hdays, Int.zero_mul, Int.sub_zero]
  have hrange : instant.inRange = true := h.inRange
  rw [if_pos (by simp [hrange])]

private theorem readOffset?_greenwich : readOffset? ['Z'] = some (0, []) := by decide

/-- Every instant that the calendar has is read back from its text. -/
theorem ofText?_toText {instant : Instant} (h : instant.Proper) :
    ofText? instant.toText = some instant := by
  obtain ⟨hhour, hminute, hsecond, hnano⟩ := clock_bounds h
  obtain ⟨hmonth, hday⟩ := Date.lt_of_isValid (Date.isValid_ofDays (instant.second / 86400))
  have hend : NotNext Char.isDigit ('T' :: (padded 2 instant.clock.hour ++ ':' ::
      (padded 2 instant.clock.minute ++ ':' :: (padded 2 instant.clock.second ++
        (fractionText instant.clock.nano ++ ['Z']))))) := notNext_cons rfl
  have hdate := readDate?_text hmonth hday hend
  have hclock := readClock?_text (by omega : instant.clock.hour < 100)
    (by omega : instant.clock.minute < 100) (by omega : instant.clock.second < 100) hnano
  have htext : instant.toText.toList = instant.toChars := String.toList_ofList
  unfold ofText?
  rw [htext, toChars_eq, hdate]
  simp only [Option.bind_eq_bind, Option.bind_some, hclock, readOffset?_greenwich]
  exact ofLocal?_clock h

private theorem nano_lt_of_readFraction? {text rest : List Char} {nano : Nat}
    (h : readFraction? text = some (nano, rest)) : nano < 1000000000 := by
  unfold readFraction? at h
  split at h
  · rename_i fraction
    have hdigits : ∀ c ∈ (fraction.takeWhile Char.isDigit).take 9, c.isDigit = true :=
      fun c hc => List.mem_takeWhile_imp (List.mem_of_mem_take hc)
    have hvalue := digitsValue_lt hdigits
    have hlength := List.length_take_le 9 (fraction.takeWhile Char.isDigit)
    simp only at h
    split at h
    · cases h
    · cases h
      generalize (fraction.takeWhile Char.isDigit).take 9 = kept at *
      calc digitsValue kept * 10 ^ (9 - kept.length)
          < 10 ^ kept.length * 10 ^ (9 - kept.length) :=
            Nat.mul_lt_mul_of_pos_right hvalue (Nat.pow_pos (by decide))
        _ = 1000000000 := by rw [← Nat.pow_add, Nat.add_sub_cancel' hlength]
  · cases h
    decide

private theorem nano_lt_of_readClock? {text rest : List Char} {clock : Clock}
    (h : readClock? text = some (clock, rest)) : clock.nano < 1000000000 := by
  simp only [readClock?, Option.bind_eq_bind, Option.bind_eq_some_iff, Option.pure_def] at h
  obtain ⟨_, -, _, -, _, -, _, -, _, -, ⟨nano, text⟩, hfraction, h⟩ := h
  cases h
  exact nano_lt_of_readFraction? hfraction

private theorem proper_of_ofLocal? {date : Date} {clock : Clock} {offset : Int} {instant : Instant}
    (hnano : clock.nano < 1000000000) (h : ofLocal? date clock offset = some instant) :
    instant.Proper := by
  simp only [ofLocal?, Option.ite_none_right_eq_some, Option.some.injEq] at h
  obtain ⟨-, hrange, rfl⟩ := h
  refine ⟨(Bool.and_eq_true_iff.1 hrange).2, ?_⟩
  by_cases hleap : clock.second = 60
  · simp only [if_pos hleap]
    omega
  · simp only [if_neg hleap]
    omega

theorem proper_of_ofText? {text : String} {instant : Instant} (h : ofText? text = some instant) :
    instant.Proper := by
  simp only [ofText?, Option.bind_eq_bind] at h
  obtain ⟨⟨date, rest⟩, -, h⟩ := Option.bind_eq_some_iff.1 h
  have hclock {text : List Char}
      (h : ((readClock? text).bind fun clock => (readOffset? clock.2).bind fun offset =>
        if (trimStart offset.2).isEmpty then ofLocal? date clock.1 offset.1 else none) = some instant) :
      instant.Proper := by
    obtain ⟨⟨clock, rest⟩, hclock, h⟩ := Option.bind_eq_some_iff.1 h
    obtain ⟨⟨offset, rest⟩, -, h⟩ := Option.bind_eq_some_iff.1 h
    exact proper_of_ofLocal? (nano_lt_of_readClock? hclock) (Option.ite_none_right_eq_some.1 h).2
  split at h
  case h_4 => cases h
  all_goals exact hclock h

end Instant

end SignalDesk
