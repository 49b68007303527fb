import SignalDesk.Config.Document
import SignalDesk.Proofs.Float.Text
import SignalDesk.Proofs.Toml.Strings

/-!
# Scalars of TOML

A scalar is read back from its text when the line ends after it. What has to be ruled out first is
that a number starts a date, a time or a number in another base.
-/

namespace SignalDesk.Toml

private theorem noDigits : ∀ d ∈ ([] : List Char), d.isDigit = true := nofun

section

variable {run rest : List Char} {c : Char} (hrun : ∀ d ∈ run, d.isDigit = true)
  (hc : c.isDigit = false)

include hrun hc

private theorem afterChar?_of_fixedDigits? (mark : Char) (hmark : mark.isDigit = false)
    (hne : run = [] ∨ mark ≠ c) {count value : Nat} (hcount : 0 < count) {text : List Char}
    (h : fixedDigits? count (run ++ c :: rest) = some (value, text)) : afterChar? mark text = none := by
  unfold fixedDigits? at h
  simp only at h
  split at h
  · rename_i htake
    cases h
    obtain ⟨hlength, hdigits⟩ := htake
    rw [List.all_eq_true] at hdigits
    have hinside : count ≤ run.length := by
      by_contra hlong
      have hmem : c ∈ (run ++ c :: rest).take count := by
        rw [List.take_append, List.mem_append]
        right
        obtain ⟨j, hj⟩ := Nat.exists_eq_succ_of_ne_zero (by omega : count - run.length ≠ 0)
        rw [hj]
        exact List.mem_cons_self
      exact Bool.false_ne_true (hc.symm.trans (hdigits c hmem))
    rw [List.drop_append_of_le_length hinside]
    cases hdrop : run.drop count with
    | nil =>
      rcases hne with rfl | hne
      · exact absurd hinside (by simpa using hcount.ne')
      · exact if_neg hne
    | cons d after =>
      have hd := hrun d (List.mem_of_mem_drop (hdrop ▸ List.mem_cons_self))
      have hne : mark ≠ d := by
        rintro rfl
        rw [hmark] at hd
        cases hd
      exact if_neg hne
  · cases h

private theorem afterDateTime?_none (hne : run = [] ∨ c ≠ '-' ∧ c ≠ ':') :
    afterDateTime? (run ++ c :: rest) = none := by
  have hdate : afterDate? (run ++ c :: rest) = none := by
    unfold afterDate?
    cases h : fixedDigits? 4 (run ++ c :: rest) with
    | none => rfl
    | some found =>
      have hmark := afterChar?_of_fixedDigits? hrun hc '-' rfl
        (hne.imp_right fun h => h.1.symm) (by decide) h
      simp [hmark]
  have htime : afterTime? (run ++ c :: rest) = none := by
    unfold afterTime? afterMinutes?
    cases h : fixedDigits? 2 (run ++ c :: rest) with
    | none => rfl
    | some found =>
      have hmark := afterChar?_of_fixedDigits? hrun hc ':' rfl
        (hne.imp_right fun h => h.2.symm) (by decide) h
      simp [hmark]
  unfold afterDateTime?
  rw [hdate]
  exact htime

end

private theorem readMoreDigits?_append {digits rest : List Char} {c : Char}
    (hdigits : ∀ d ∈ digits, d.isDigit = true) (hc : c.isDigit = false) (hne : c ≠ '_') :
    readMoreDigits? Char.isDigit (digits ++ c :: rest) = some (digits, c :: rest) := by
  induction digits with
  | nil =>
    rw [List.nil_append, readMoreDigits?]
    · simp [hc, hne]
    · simp [hne]
  | cons d digits ih =>
    have hd := hdigits d List.mem_cons_self
    have hscore : d ≠ '_' := by
      rintro rfl
      cases hd
    rw [List.cons_append, readMoreDigits?]
    · simp only [hd, if_true]
      rw [ih fun x hx => hdigits x (List.mem_cons_of_mem d hx)]
      rfl
    · simp [hscore]

private theorem readDigits?_append {digits rest : List Char} {c : Char}
    (hdigits : ∀ d ∈ digits, d.isDigit = true) (hnonempty : digits ≠ []) (hc : c.isDigit = false)
    (hne : c ≠ '_') : readDigits? Char.isDigit (digits ++ c :: rest) = some (digits, c :: rest) := by
  obtain ⟨d, tail, rfl⟩ := List.exists_cons_of_ne_nil hnonempty
  have hd := hdigits d List.mem_cons_self
  have hmore : readMoreDigits? Char.isDigit (d :: (tail ++ c :: rest)) = some (d :: tail, c :: rest) :=
    readMoreDigits?_append hdigits hc hne
  rw [List.cons_append]
  unfold readDigits?
  simp only [hd, if_true]
  exact hmore

private theorem readWhole?_append {whole rest : List Char} {c : Char}
    (hdigits : ∀ d ∈ whole, d.isDigit = true)
    (hlead : whole = ['0'] ∨ ∃ d tail, whole = d :: tail ∧ d ≠ '0') (hc : c.isDigit = false)
    (hne : c ≠ '_') : readWhole? (whole ++ c :: rest) = some (whole, c :: rest) := by
  rcases hlead with rfl | ⟨d, tail, rfl, hd⟩
  · rfl
  · have hread : readDigits? Char.isDigit (d :: (tail ++ c :: rest)) = some (d :: tail, c :: rest) :=
      readDigits?_append hdigits (List.cons_ne_nil d tail) hc hne
    rw [List.cons_append]
    unfold readWhole?
    split
    · rename_i heq
      exact absurd (List.cons.inj heq).1 hd
    · exact hread

/-- A whole part as it is written: digits without a leading zero, or one zero. -/
structure Whole (digits : List Char) : Prop where
  isDigit : ∀ d ∈ digits, d.isDigit = true
  lead : digits = ['0'] ∨ ∃ d tail, digits = d :: tail ∧ d ≠ '0'

private theorem whole_decimalDigits (n : Nat) : Whole (FloatText.decimalDigits n) := by
  refine ⟨fun d => FloatText.isDigit_of_mem_decimalDigits, ?_⟩
  rcases Nat.eq_zero_or_pos n with rfl | hpos
  · exact .inl FloatText.decimalDigits_zero
  · exact .inr (FloatText.decimalDigits_eq_cons hpos)

/-- What ends a written whole part: the point, or the end of the line. -/
def EndsWhole (c : Char) : Prop := c = '.' ∨ c = '\n'

theorem EndsWhole.isDigit {c : Char} (h : EndsWhole c) : c.isDigit = false := by
  rcases h with rfl | rfl <;> rfl

private theorem readNumber?_signed {whole rest : List Char} {c : Char} (hwhole : Whole whole)
    (hc : EndsWhole c) (negative : Bool) :
    readNumber? (FloatText.sign negative ++ (whole ++ c :: rest)) =
      readDecimal? negative (whole ++ c :: rest) := by
  cases negative with
  | true =>
    have hdate : afterDateTime? ('-' :: (whole ++ c :: rest)) = none :=
      afterDateTime?_none noDigits rfl (.inl rfl)
    show readNumber? ('-' :: (whole ++ c :: rest)) = _
    unfold readNumber?
    rw [hdate]
    rfl
  | false =>
    have hne : c ≠ '-' ∧ c ≠ ':' := by rcases hc with rfl | rfl <;> decide
    have hdate : afterDateTime? (whole ++ c :: rest) = none :=
      afterDateTime?_none hwhole.isDigit hc.isDigit (.inr hne)
    show readNumber? (whole ++ c :: rest) = _
    unfold readNumber?
    rw [hdate]
    rcases hwhole.lead with rfl | ⟨d, tail, rfl, hd⟩
    · rcases hc with rfl | rfl <;> rfl
    · have hdigit := hwhole.isDigit d List.mem_cons_self
      have hminus : d ≠ '-' := by rintro rfl; cases hdigit
      have hplus : d ≠ '+' := by rintro rfl; cases hdigit
      have hsign : takeSign (d :: tail ++ c :: rest) = (none, d :: tail ++ c :: rest) := by
        rw [List.cons_append, takeSign]
        · simp [hminus]
        · simp [hplus]
      split
      · rename_i heq
        cases heq
      · rename_i heq
        split
        · rename_i hcons
          exact absurd (List.cons.inj hcons).1 hd
        · rename_i hcons
          exact absurd (List.cons.inj hcons).1 hd
        · rename_i hcons
          exact absurd (List.cons.inj hcons).1 hd
        · rw [hsign]
          rfl

private theorem readDecimal?_whole {whole rest : List Char} {c : Char} (hwhole : Whole whole)
    (hc : EndsWhole c) (negative : Bool) :
    readDecimal? negative (whole ++ c :: rest) =
      match readFloatTail? (c :: rest) with
      | some (fraction, exponent, rest) =>
        (floatData? (Numeral.toFloat
          ⟨negative, digitsValue (whole ++ fraction), exponent - fraction.length⟩)).map (·, rest)
      | none =>
        (intData? (if negative then -(digitsValue whole : Int) else digitsValue whole)).map
          (·, c :: rest) := by
  have hscore : c ≠ '_' := by rcases hc with rfl | rfl <;> decide
  have hread : readWhole? (whole ++ c :: rest) = some (whole, c :: rest) :=
    readWhole?_append hwhole.isDigit hwhole.lead hc.isDigit hscore
  obtain ⟨d, tail, rfl⟩ : ∃ d tail, whole = d :: tail := by
    rcases hwhole.lead with rfl | ⟨d, tail, rfl, -⟩
    · exact ⟨'0', [], rfl⟩
    · exact ⟨d, tail, rfl⟩
  have hdigit := hwhole.isDigit d List.mem_cons_self
  have hi : d ≠ 'i' := by rintro rfl; cases hdigit
  have hn : d ≠ 'n' := by rintro rfl; cases hdigit
  rw [List.cons_append] at hread ⊢
  unfold readDecimal?
  split
  · rename_i hcons
    exact absurd (List.cons.inj hcons).1 hi
  · rename_i hcons
    exact absurd (List.cons.inj hcons).1 hn
  · rw [hread]
    simp only [Option.bind_eq_bind, Option.bind_some]
    cases readFloatTail? (c :: rest) with
    | none =>
      cases intData? _ <;> rfl
    | some found =>
      obtain ⟨fraction, exponent, rest⟩ := found
      simp only
      cases floatData? _ <;> rfl

theorem readNumber?_integerText {n : Int} (h : fitsInt64 n = true) (rest : List Char) :
    readNumber? (FloatText.integerText n ++ '\n' :: rest) = some (.int n, '\n' :: rest) := by
  have hwhole := whole_decimalDigits n.natAbs
  have htail : readFloatTail? ('\n' :: rest) = none := rfl
  have hvalue : (if decide (n < 0) = true then -((n.natAbs : ℕ) : ℤ) else (n.natAbs : ℕ)) = n := by
    split
    · rename_i hsign
      have := of_decide_eq_true hsign
      omega
    · rename_i hsign
      have := of_decide_eq_false (Bool.eq_false_iff.2 hsign)
      omega
  unfold FloatText.integerText
  rw [List.append_assoc, readNumber?_signed hwhole (.inr rfl), readDecimal?_whole hwhole (.inr rfl),
    htail]
  simp only [FloatText.digitsValue_decimalDigits, hvalue, intData?, h, if_true, Option.map_some]

private theorem readFloatTail?_fraction {fraction rest : List Char}
    (hdigits : ∀ d ∈ fraction, d.isDigit = true) (hnonempty : fraction ≠ []) :
    readFloatTail? ('.' :: (fraction ++ '\n' :: rest)) = some (fraction, 0, '\n' :: rest) := by
  have hread : readDigits? Char.isDigit (fraction ++ '\n' :: rest) = some (fraction, '\n' :: rest) :=
    readDigits?_append hdigits hnonempty rfl (by decide)
  have hexponent : readExponent? ('\n' :: rest) = none := rfl
  unfold readFloatTail?
  simp only [hread, Option.bind_eq_bind, Option.bind_some, hexponent]
  rfl

private theorem floatData?_finite {x : Float} (hx : x.isFinite = true) :
    floatData? x = some (.float x) := by
  have hinf : x.isInf = false := by
    have hregular := FloatValue.regular_unpack hx
    show x.toModel.unpack.isInf = false
    cases hu : x.toModel.unpack with
    | notANumber => rfl
    | infinity => rw [hu] at hregular; exact hregular.elim
    | zero => rfl
    | finite => rfl
  unfold floatData?
  rw [hinf]
  rfl

private theorem readNumber?_finite {x : Float} (hx : x.isFinite = true) (rest : List Char) :
    readNumber? ((FloatText.pointed x).toList ++ '\n' :: rest) = some (.float x, '\n' :: rest) := by
  obtain ⟨negative, whole, fraction, htext, hspelled, hvalue⟩ := FloatText.pointed_finite hx
  have hwhole : Whole whole := ⟨hspelled.whole_digits, hspelled.lead⟩
  rw [htext, List.append_assoc, List.append_assoc, List.cons_append,
    readNumber?_signed hwhole (.inl rfl), readDecimal?_whole hwhole (.inl rfl),
    readFloatTail?_fraction hspelled.fraction_digits hspelled.fraction_ne_nil]
  simp only [Int.zero_sub, hvalue, floatData?_finite hx, Option.map_some]

private theorem readNumber?_word {c : Char} (hc : c.isDigit = false) (text : List Char)
    (hradix : c ≠ '0') :
    readNumber? (c :: text) =
      readDecimal? ((takeSign (c :: text)).1.getD false) (takeSign (c :: text)).2 := by
  have hdate : afterDateTime? (c :: text) = none :=
    afterDateTime?_none noDigits hc (.inl rfl)
  unfold readNumber?
  rw [hdate]
  simp only
  split
  · rename_i hcons
    exact absurd (List.cons.inj hcons).1 hradix
  · rename_i hcons
    exact absurd (List.cons.inj hcons).1 hradix
  · rename_i hcons
    exact absurd (List.cons.inj hcons).1 hradix
  · rfl

private theorem pointed_cases (x : Float) :
    x.isFinite = true ∨ (x = undefined ∧ (FloatText.pointed x).toList = ['n', 'a', 'n']) ∨
      (∃ negative, x = (if negative then -infinity else infinity) ∧
        (FloatText.pointed x).toList = FloatText.sign negative ++ ['i', 'n', 'f']) := by
  have hshape := FloatValue.shape_eq x
  cases hu : x.toModel.unpack with
  | zero s => exact .inl (congrArg (·.isFinite) hu)
  | finite s m e hm => exact .inl (congrArg (·.isFinite) hu)
  | notANumber =>
    rw [hu] at hshape
    refine .inr (.inl ⟨FloatValue.eq_of_unpack_eq hu, ?_⟩)
    unfold FloatText.pointed
    rw [hshape]
    show "nan".toList = _
    decide
  | infinity s =>
    rw [hu] at hshape
    refine .inr (.inr ⟨FloatValue.isNegative s, ?_, ?_⟩)
    · cases s <;> exact FloatValue.eq_of_unpack_eq hu
    · unfold FloatText.pointed
      rw [hshape]
      exact String.toList_ofList

private theorem readNumber?_pointed (x : Float) (rest : List Char) :
    readNumber? ((FloatText.pointed x).toList ++ '\n' :: rest) = some (.float x, '\n' :: rest) := by
  rcases pointed_cases x with hx | ⟨hx, htext⟩ | ⟨negative, hx, htext⟩
  · exact readNumber?_finite hx rest
  · rw [htext]
    exact (readNumber?_word rfl _ (by decide)).trans (congrArg some (by rw [hx]; rfl))
  · rw [htext]
    cases negative <;>
      exact (readNumber?_word rfl _ (by decide)).trans (congrArg some (by rw [hx]; rfl))

def StartsNumber (c : Char) : Prop := c.isDigit = true ∨ c = '-' ∨ c = 'n' ∨ c = 'i'

theorem readValue?_number {c : Char} (hc : StartsNumber c) (fuel depth : Nat) (text : List Char) :
    readValue? (fuel + 1) depth (c :: text) = readNumber? (c :: text) := by
  have hne (d : Char) (hd : ¬ StartsNumber d) : c ≠ d := by
    rintro rfl
    exact hd hc
  have hquote : c ≠ '"' := hne _ (by unfold StartsNumber; decide)
  have happostrophe : c ≠ '\x27' := hne _ (by unfold StartsNumber; decide)
  have ht : c ≠ 't' := hne _ (by unfold StartsNumber; decide)
  have hf : c ≠ 'f' := hne _ (by unfold StartsNumber; decide)
  have hbracket : c ≠ '[' := hne _ (by unfold StartsNumber; decide)
  have hbrace : c ≠ '\x7b' := hne _ (by unfold StartsNumber; decide)
  rw [readValue?] <;> simp [*]

private theorem startsNumber_signed {whole : List Char} (hwhole : Whole whole) (negative : Bool) :
    ∃ c text, FloatText.sign negative ++ whole = c :: text ∧ StartsNumber c := by
  cases negative with
  | true => exact ⟨'-', whole, rfl, .inr (.inl rfl)⟩
  | false =>
    rcases hwhole.lead with rfl | ⟨d, tail, rfl, -⟩
    · exact ⟨'0', [], rfl, .inl rfl⟩
    · exact ⟨d, tail, rfl, .inl (hwhole.isDigit d List.mem_cons_self)⟩

private theorem startsNumber_pointed (x : Float) :
    ∃ c text, (FloatText.pointed x).toList = c :: text ∧ StartsNumber c := by
  rcases pointed_cases x with hx | ⟨-, htext⟩ | ⟨negative, -, htext⟩
  · obtain ⟨negative, whole, fraction, htext, hspelled, -⟩ := FloatText.pointed_finite hx
    obtain ⟨c, text, hcons, hc⟩ :=
      startsNumber_signed ⟨hspelled.whole_digits, hspelled.lead⟩ negative
    refine ⟨c, text ++ '.' :: fraction, ?_, hc⟩
    rw [htext, ← List.append_assoc, hcons]
    rfl
  · exact ⟨'n', _, htext, .inr (.inr (.inl rfl))⟩
  · cases negative with
    | true => exact ⟨'-', _, htext, .inr (.inl rfl)⟩
    | false => exact ⟨'i', _, htext, .inr (.inr (.inr rfl))⟩

private theorem readValue?_string {text rest : List Char} {s : String}
    (hquote : ∃ tail, text = '"' :: tail ∨ text = '\x27' :: tail)
    (h : readString? text = some (s.toList, rest)) (fuel depth : Nat) :
    readValue? (fuel + 1) depth text = some (.text s, rest) := by
  have hdata : (Data.text (String.ofList s.toList), rest) = (Data.text s, rest) := by
    rw [String.ofList_toList]
  obtain ⟨tail, rfl | rfl⟩ := hquote
  · rw [readValue?, h]
    exact congrArg some hdata
  · rw [readValue?, h]
    exact congrArg some hdata

private theorem writeString_starts (s : String) :
    ∃ tail, writeString s = '"' :: tail ∨ writeString s = '\x27' :: tail := by
  unfold writeString
  simp only
  split
  · exact ⟨_, .inl rfl⟩
  · exact ⟨_, .inr rfl⟩
  · exact ⟨_, .inl rfl⟩
  · exact ⟨_, .inr rfl⟩

theorem StartsNumber.isSpace {c : Char} (h : StartsNumber c) : isSpace c = false := by
  by_contra hspace
  rw [Bool.not_eq_false, Toml.isSpace, Bool.or_eq_true, beq_iff_eq, beq_iff_eq] at hspace
  unfold StartsNumber at h
  rcases hspace with rfl | rfl <;> simp at h

theorem skipSpaces_writeScalar? {s : Scalar} {text : List Char} (h : writeScalar? s = some text)
    (rest : List Char) : skipSpaces (text ++ rest) = text ++ rest := by
  obtain ⟨c, tail, rfl, hc⟩ : ∃ c tail, text = c :: tail ∧ isSpace c = false := by
    cases s with
    | bool b =>
      cases h
      cases b
      · exact ⟨'f', _, rfl, rfl⟩
      · exact ⟨'t', _, rfl, rfl⟩
    | int n =>
      simp only [writeScalar?] at h
      split at h
      · cases h
        obtain ⟨c, tail, htext, hc⟩ := startsNumber_signed (whole_decimalDigits n.natAbs) (n < 0)
        exact ⟨c, tail, htext, hc.isSpace⟩
      · cases h
    | float x =>
      cases h
      obtain ⟨c, tail, htext, hc⟩ := startsNumber_pointed x
      exact ⟨c, tail, htext, hc.isSpace⟩
    | text s =>
      cases h
      obtain ⟨tail, htext | htext⟩ := writeString_starts s
      · exact ⟨_, tail, htext, rfl⟩
      · exact ⟨_, tail, htext, rfl⟩
  exact List.dropWhile_cons_of_neg (by simp [hc])

theorem readValue?_writeScalar? {s : Scalar} {text : List Char} (h : writeScalar? s = some text)
    (fuel depth : Nat) (rest : List Char) :
    readValue? (fuel + 1) depth (text ++ '\n' :: rest) =
      some (Config.scalarData s, '\n' :: rest) := by
  cases s with
  | bool b =>
    cases h
    cases b <;> rfl
  | int n =>
    simp only [writeScalar?] at h
    split at h
    · rename_i hfits
      cases h
      obtain ⟨c, tail, htext, hc⟩ := startsNumber_signed (whole_decimalDigits n.natAbs) (n < 0)
      have hread := readNumber?_integerText hfits rest
      unfold FloatText.integerText at hread ⊢
      rw [htext, List.cons_append] at hread ⊢
      rw [readValue?_number hc, hread]
      rfl
    · cases h
  | float x =>
    cases h
    obtain ⟨c, tail, htext, hc⟩ := startsNumber_pointed x
    have hread := readNumber?_pointed x rest
    rw [htext, List.cons_append] at hread ⊢
    rw [readValue?_number hc, hread]
    rfl
  | text s =>
    cases h
    obtain ⟨tail, hquote⟩ := writeString_starts s
    apply readValue?_string _ (readString?_writeString s (by simp) (by simp))
    rcases hquote with htext | htext
    · exact ⟨_, .inl (congrArg (· ++ '\n' :: rest) htext)⟩
    · exact ⟨_, .inr (congrArg (· ++ '\n' :: rest) htext)⟩

end SignalDesk.Toml
