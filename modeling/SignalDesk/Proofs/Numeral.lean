import Mathlib.Algebra.Order.Ring.Nat
import Mathlib.Data.List.Induction
import Mathlib.Data.List.TakeDrop
import Mathlib.Data.List.TakeWhile
import SignalDesk.Blank
import SignalDesk.FloatText

/-!
# Written digits

The decimal digits of a number are digits, stand for the number and start with a zero only if they
are a single zero. Digits are read as long as they last.
-/

namespace SignalDesk

/-- No character of the class is next. -/
def NotNext (isNext : Char → Bool) (text : List Char) : Prop := ∀ c ∈ text.head?, isNext c = false

theorem notNext_nil (isNext : Char → Bool) : NotNext isNext [] := fun _ h => by cases h

theorem notNext_cons {isNext : Char → Bool} {c : Char} {text : List Char} (h : isNext c = false) :
    NotNext isNext (c :: text) := fun _ hc => Option.some.inj hc ▸ h

theorem span_append {isNext : Char → Bool} {run rest : List Char} (hrun : ∀ c ∈ run, isNext c = true)
    (hrest : NotNext isNext rest) : (run ++ rest).span isNext = (run, rest) := by
  rw [List.span_eq_takeWhile_dropWhile, List.takeWhile_append_of_pos hrun,
    List.dropWhile_append_of_pos hrun]
  cases rest with
  | nil => rw [List.takeWhile_nil, List.append_nil, List.dropWhile_nil]
  | cons c rest =>
    have hc := hrest c rfl
    rw [List.takeWhile_cons_of_neg (by simp [hc]), List.append_nil, List.dropWhile_cons_of_neg (by simp [hc])]

theorem takeWhile_append {isNext : Char → Bool} {run rest : List Char}
    (hrun : ∀ c ∈ run, isNext c = true) (hrest : NotNext isNext rest) :
    (run ++ rest).takeWhile isNext = run := by
  have hspan := span_append hrun hrest
  rw [List.span_eq_takeWhile_dropWhile] at hspan
  exact (Prod.mk.inj hspan).1

private theorem isDigit_iff {c : Char} : c.isDigit = true ↔ 48 ≤ c.toNat ∧ c.toNat ≤ 57 :=
  Char.isDigit_iff_toNat

theorem not_isDigit_of_isWhiteSpace {c : Char} (h : isWhiteSpace c = true) : c.isDigit = false := by
  rw [Bool.eq_false_iff]
  intro hdigit
  obtain ⟨hlow, hhigh⟩ := isDigit_iff.1 hdigit
  simp only [isWhiteSpace, Bool.or_eq_true, Bool.and_eq_true, decide_eq_true_eq, beq_iff_eq] at h
  omega

theorem digitsValue_zeros_append (digits : List Char) (j : Nat) :
    digitsValue (List.replicate j '0' ++ digits) = digitsValue digits := by
  have hzeros := Nat.ofDigitChars_append (b := 10) (l := List.replicate j '0') (m := digits) 0
  rwa [Nat.ofDigitChars_replicate_zero, Nat.mul_zero] at hzeros

theorem digitsValue_lt {digits : List Char} (h : ∀ c ∈ digits, c.isDigit = true) :
    digitsValue digits < 10 ^ digits.length := by
  induction digits using List.reverseRecOn with
  | nil => decide
  | append_singleton digits c ih =>
    have hdigits := ih fun d hd => h d (List.mem_append_left _ hd)
    have hc := (isDigit_iff.1 (h c List.mem_concat_self)).2
    have hzero : '0'.toNat = 48 := rfl
    rw [digitsValue_append_singleton, List.length_append, List.length_singleton, Nat.pow_succ]
    omega

theorem isDigit_of_mem_zeros {j : Nat} {c : Char} (h : c ∈ List.replicate j '0') :
    c.isDigit = true := by
  rw [List.eq_of_mem_replicate h]
  rfl

namespace FloatText

theorem isDigit_of_mem_decimalDigits {n : Nat} {c : Char} (h : c ∈ decimalDigits n) :
    c.isDigit = true :=
  Nat.isDigit_of_mem_toDigits (by decide) (by decide) h

theorem decimalDigits_ne_nil (n : Nat) : decimalDigits n ≠ [] := Nat.toDigits_ne_nil

theorem decimalDigits_zero : decimalDigits 0 = ['0'] := Nat.toDigits_zero 10

theorem digitsValue_decimalDigits (n : Nat) : digitsValue (decimalDigits n) = n :=
  Nat.ofDigitChars_ten_toDigits

theorem decimalDigits_eq_cons {n : Nat} (h : 0 < n) :
    ∃ d digits, decimalDigits n = d :: digits ∧ d ≠ '0' := by
  induction n using Nat.strongRecOn with
  | ind n ih =>
    unfold decimalDigits
    rcases Nat.lt_or_ge n 10 with hlt | hge
    · refine ⟨n.digitChar, [], Nat.toDigits_of_lt_base hlt, ?_⟩
      rw [Ne, Nat.digitChar_eq_zero]
      omega
    · obtain ⟨d, digits, hdigits, hd⟩ := ih (n / 10) (by omega) (by omega)
      refine ⟨d, digits ++ [(n % 10).digitChar], ?_, hd⟩
      rw [Nat.toDigits_of_base_le (by decide) hge]
      exact congrArg (· ++ _) hdigits

end FloatText

end SignalDesk
