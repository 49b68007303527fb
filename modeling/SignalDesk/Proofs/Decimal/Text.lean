import Mathlib.Algebra.Order.Ring.Nat
import Mathlib.Tactic.Positivity
import SignalDesk.Decimal.Text
import SignalDesk.Proofs.Numeral

/-!
# Amounts from their text

An amount is read back from its text with its value and its scale. Only a zero with a sign comes back
as another amount, without the sign.
-/

namespace SignalDesk.Decimal

open FloatText (decimalDigits joinPoint sign)

private theorem le_ofDigitChars (digits : List Char) (value : Nat) :
    value ≤ Nat.ofDigitChars 10 digits value := by
  rw [Nat.ofDigitChars_eq_ofDigitChars_zero]
  have hpower : 0 < 10 ^ digits.length := by positivity
  exact (Nat.le_mul_of_pos_left value hpower).trans (Nat.le_add_right _ _)

private theorem digit?_of_isDigit {c : Char} (h : c.isDigit = true) :
    digit? c = some (c.toNat - '0'.toNat) := if_pos h

private theorem readUnsigned?_whole {digits : List Char} (hdigits : ∀ c ∈ digits, c.isDigit = true)
    (hne : digits ≠ []) {value : Nat} {started : Bool}
    (hbound : Nat.ofDigitChars 10 digits value < mantissaBound) (rest : List Char) :
    readUnsigned? ⟨value, 0, false, started⟩ (digits ++ rest) =
      readUnsigned? ⟨Nat.ofDigitChars 10 digits value, 0, false, true⟩ rest := by
  induction digits generalizing value started with
  | nil => exact absurd rfl hne
  | cons c digits ih =>
    rw [Nat.ofDigitChars_cons] at hbound ⊢
    have hc := digit?_of_isDigit (hdigits c List.mem_cons_self)
    have hvalue := (le_ofDigitChars digits _).trans_lt hbound
    rw [List.cons_append, readUnsigned?, hc]
    simp only [if_pos hvalue, Bool.false_eq_true, false_and, if_false]
    cases digits with
    | nil => rfl
    | cons d digits =>
      exact ih (fun c hc => hdigits c (List.mem_cons_of_mem _ hc)) (List.cons_ne_nil d digits) hbound

private theorem readUnsigned?_fraction {digits : List Char} (hdigits : ∀ c ∈ digits, c.isDigit = true)
    {value scale : Nat} (hscale : scale + digits.length ≤ maxScale)
    (hbound : Nat.ofDigitChars 10 digits value < mantissaBound) :
    readUnsigned? ⟨value, scale, true, true⟩ digits =
      some (Nat.ofDigitChars 10 digits value, scale + digits.length) := by
  induction digits generalizing value scale with
  | nil => rfl
  | cons c digits ih =>
    rw [Nat.ofDigitChars_cons] at hbound ⊢
    have hc := digit?_of_isDigit (hdigits c List.mem_cons_self)
    have hvalue := (le_ofDigitChars digits _).trans_lt hbound
    rw [List.length_cons] at hscale ⊢
    rw [readUnsigned?, hc]
    simp only [if_pos hvalue, if_true, true_and]
    split
    · rename_i hlast
      -- the place was the last one, so nothing is left to round on
      have hnone : digits = [] := List.eq_nil_of_length_eq_zero (by omega)
      rw [hnone]
      rfl
    · rw [ih (fun c hc => hdigits c (List.mem_cons_of_mem _ hc)) (by omega) hbound]
      congr 2
      omega

private theorem readUnsigned?_joinPoint {whole fraction : List Char}
    (hwhole : ∀ c ∈ whole, c.isDigit = true) (hfraction : ∀ c ∈ fraction, c.isDigit = true)
    (hne : whole ≠ []) (hscale : fraction.length ≤ maxScale)
    (hbound : digitsValue (whole ++ fraction) < mantissaBound) :
    readUnsigned? ⟨0, 0, false, false⟩ (joinPoint whole fraction) =
      some (digitsValue (whole ++ fraction), fraction.length) := by
  have hsplit : digitsValue (whole ++ fraction) =
      Nat.ofDigitChars 10 fraction (Nat.ofDigitChars 10 whole 0) := Nat.ofDigitChars_append 0
  rw [hsplit] at hbound ⊢
  have hprefix := (le_ofDigitChars fraction _).trans_lt hbound
  unfold joinPoint
  cases fraction with
  | nil =>
    have hread : readUnsigned? ⟨0, 0, false, false⟩ (whole ++ []) =
        readUnsigned? ⟨Nat.ofDigitChars 10 whole 0, 0, false, true⟩ [] :=
      readUnsigned?_whole hwhole hne hprefix []
    rw [List.append_nil] at hread
    exact hread
  | cons c fraction =>
    rw [if_neg (by simp), readUnsigned?_whole hwhole hne hprefix, readUnsigned?]
    have hpoint : digit? '.' = none := rfl
    rw [hpoint]
    simp only [beq_self_eq_true, Bool.not_false, Bool.and_self, if_true]
    rw [readUnsigned?_fraction hfraction (by omega) hbound, Nat.zero_add]

/-- The digits of an amount with at least one before the point. -/
def padded (a : Decimal) : List Char :=
  List.replicate (a.scale + 1 - (decimalDigits a.magnitude).length) '0' ++ decimalDigits a.magnitude

theorem isDigit_of_mem_padded {a : Decimal} {c : Char} (h : c ∈ padded a) : c.isDigit = true :=
  (List.mem_append.1 h).elim isDigit_of_mem_zeros FloatText.isDigit_of_mem_decimalDigits

private theorem scale_lt_length_padded (a : Decimal) : a.scale < (padded a).length := by
  rw [padded, List.length_append, List.length_replicate]
  omega

theorem digitsValue_padded (a : Decimal) : digitsValue (padded a) = a.magnitude :=
  (digitsValue_zeros_append _ _).trans (FloatText.digitsValue_decimalDigits a.magnitude)

def unsignedText (a : Decimal) : List Char :=
  joinPoint ((padded a).take ((padded a).length - a.scale))
    ((padded a).drop ((padded a).length - a.scale))

private theorem toText_eq (a : Decimal) : a.toText.toList = sign a.isNegative ++ unsignedText a :=
  String.toList_ofList

private theorem whole_ne_nil (a : Decimal) : (padded a).take ((padded a).length - a.scale) ≠ [] := by
  intro hnil
  have hlength := congrArg List.length hnil
  have hscale := scale_lt_length_padded a
  rw [List.length_take, List.length_nil] at hlength
  omega

private theorem unsignedText_eq_cons (a : Decimal) :
    ∃ c text, unsignedText a = c :: text ∧ c.isDigit = true := by
  obtain ⟨c, whole, hwhole⟩ := List.exists_cons_of_ne_nil (whole_ne_nil a)
  have hmem : c ∈ (padded a).take ((padded a).length - a.scale) := hwhole ▸ List.mem_cons_self
  have hdigit := isDigit_of_mem_padded (List.mem_of_mem_take hmem)
  unfold unsignedText joinPoint
  rw [hwhole]
  split
  · exact ⟨c, whole, rfl, hdigit⟩
  · exact ⟨c, _, rfl, hdigit⟩

private theorem readUnsigned?_unsignedText (a : Decimal) :
    readUnsigned? ⟨0, 0, false, false⟩ (unsignedText a) = some (a.magnitude, a.scale) := by
  have hscale := scale_lt_length_padded a
  have hlength : ((padded a).drop ((padded a).length - a.scale)).length = a.scale := by
    rw [List.length_drop]
    omega
  have hvalue : digitsValue ((padded a).take ((padded a).length - a.scale) ++
      (padded a).drop ((padded a).length - a.scale)) = a.magnitude := by
    rw [List.take_append_drop, digitsValue_padded]
  have hread := readUnsigned?_joinPoint (fun c hc => isDigit_of_mem_padded (List.mem_of_mem_take hc))
    (fun c hc => isDigit_of_mem_padded (List.mem_of_mem_drop hc)) (whole_ne_nil a)
    (hlength ▸ a.scale_le) (hvalue ▸ a.magnitude_lt)
  rwa [hvalue, hlength] at hread

/-- An amount whose text says all about it: no zero with a sign. -/
def Plain (a : Decimal) : Prop := a.isNegative = true → a.magnitude ≠ 0

/-- The amount without the sign of a zero. -/
def unsignZero (a : Decimal) : Decimal := { a with isNegative := a.isNegative && a.magnitude != 0 }

theorem plain_unsignZero (a : Decimal) : a.unsignZero.Plain := by
  simp [Plain, unsignZero]

theorem unsignZero_of_plain {a : Decimal} (h : a.Plain) : a.unsignZero = a := by
  have hsign : (a.isNegative && a.magnitude != 0) = a.isNegative := by
    cases hnegative : a.isNegative with
    | false => rfl
    | true => simpa using h hnegative
  unfold unsignZero
  rw [hsign]

theorem mantissa_unsignZero (a : Decimal) : a.unsignZero.mantissa = a.mantissa := by
  by_cases hzero : a.magnitude = 0
  · simp [mantissa, unsignZero, hzero]
  · rw [unsignZero_of_plain fun _ => hzero]

private theorem ofMagnitude?_self (a : Decimal) :
    ofMagnitude? a.isNegative a.magnitude a.scale = some a.unsignZero :=
  dif_pos ⟨a.magnitude_lt, a.scale_le⟩

private theorem ofPositional?_toText (a : Decimal) :
    ofPositional? a.toText.toList = some a.unsignZero := by
  obtain ⟨c, text, htext, hc⟩ := unsignedText_eq_cons a
  have hread := readUnsigned?_unsignedText a
  have hself := ofMagnitude?_self a
  rw [toText_eq]
  cases hnegative : a.isNegative with
  | true =>
    rw [hnegative] at hself
    unfold ofPositional?
    simp only [sign, if_true, List.singleton_append, hread]
    exact hself
  | false =>
    rw [hnegative] at hself
    have hminus : c ≠ '-' := by rintro rfl; cases hc
    have hplus : c ≠ '+' := by rintro rfl; cases hc
    rw [htext] at hread ⊢
    unfold ofPositional?
    simp only [sign, Bool.false_eq_true, if_false, List.nil_append]
    split
    · rename_i hcons
      exact absurd (List.cons.inj hcons).1 hminus
    · rename_i hcons
      exact absurd (List.cons.inj hcons).1 hplus
    · simp only [hread]
      exact hself

theorem ofText?_toText (a : Decimal) : ofText? a.toText = some a.unsignZero := by
  unfold ofText?
  rw [ofPositional?_toText]
  rfl

/-- The sign of a zero shows in the text. -/
theorem plain_of_toText_unsignZero {a : Decimal} (h : a.unsignZero.toText = a.toText) : a.Plain := by
  intro hnegative hzero
  have htext := congrArg String.toList h
  have hsame : unsignedText a.unsignZero = unsignedText a := rfl
  rw [toText_eq, toText_eq, hsame, List.append_cancel_right_eq] at htext
  simp [unsignZero, hnegative, hzero, sign] at htext

end SignalDesk.Decimal
