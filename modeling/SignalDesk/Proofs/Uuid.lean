import Mathlib.Tactic.Ring
import SignalDesk.Uuid

/-!
# Ids from their text

Every id is read back from the five groups of digits that it is written as.
-/

namespace SignalDesk

private theorem hexValue?_digitChar :
    ∀ digit < 16, hexValue? (Nat.digitChar digit) = some digit := by decide

private theorem length_hexDigits (count n : Nat) : (hexDigits count n).length = count := by
  simp [hexDigits]

private theorem hexDigits_succ (count n : Nat) :
    hexDigits (count + 1) n = Nat.digitChar (n / 16 ^ count % 16) :: hexDigits count n := by
  simp [hexDigits, List.range_succ]

private theorem mapM_hexValue?_hexDigits (count n : Nat) :
    (hexDigits count n).mapM hexValue? =
      some ((List.range count).reverse.map fun i => n / 16 ^ i % 16) := by
  induction count with
  | zero => rfl
  | succ count ih =>
    have hdigit := hexValue?_digitChar (n / 16 ^ count % 16) (Nat.mod_lt _ (by decide))
    simp [hexDigits_succ, List.mapM_cons, hdigit, ih, List.range_succ]

private theorem foldl_digits (count n value : Nat) :
    ((List.range count).reverse.map fun i => n / 16 ^ i % 16).foldl (fun value digit => 16 * value + digit)
      value = value * 16 ^ count + n % 16 ^ count := by
  induction count generalizing value with
  | zero => simp [Nat.mod_one]
  | succ count ih =>
    simp only [List.range_succ, List.reverse_append, List.reverse_singleton, List.singleton_append,
      List.map_cons, List.foldl_cons, ih, Nat.pow_succ, Nat.mod_mul]
    ring

private theorem hexNumber?_hexDigits (count n : Nat) :
    hexNumber? (hexDigits count n) = some (n % 16 ^ count) := by
  have hvalue := foldl_digits count n 0
  rw [Nat.zero_mul, Nat.zero_add] at hvalue
  rw [hexNumber?, mapM_hexValue?_hexDigits, Option.bind_eq_bind, Option.bind_some, hvalue]
  rfl

namespace Uuid

private theorem ofDigits?_hexDigits (id : Uuid) :
    ofDigits? (hexDigits 32 id.bits.toNat) = some id := by
  have hlt : id.bits.toNat < 16 ^ 32 := id.bits.isLt
  have hback : BitVec.ofNat 128 id.bits.toNat = id.bits := by simp
  rw [ofDigits?, hexNumber?_hexDigits, Nat.mod_eq_of_lt hlt, Option.bind_eq_bind, Option.bind_some,
    if_pos (length_hexDigits _ _), hback]
  rfl

private theorem ungroup?_groups {a b c d e : List Char} (ha : a.length = 8) (hb : b.length = 4)
    (hc : c.length = 4) (hd : d.length = 4) (he : e.length = 12) :
    ungroup? (a ++ '-' :: (b ++ '-' :: (c ++ '-' :: (d ++ '-' :: e)))) =
      some (a ++ (b ++ (c ++ (d ++ e)))) := by
  simp (disch := omega) [ungroup?, ha, hb, hc, hd, he, List.getElem?_append, List.drop_append,
    List.drop_eq_nil_of_le]
  exact ⟨rfl, rfl, rfl, rfl⟩

theorem toChars_eq (id : Uuid) :
    ∃ a b c d e : List Char, a.length = 8 ∧ b.length = 4 ∧ c.length = 4 ∧ d.length = 4 ∧
      e.length = 12 ∧ id.toChars = a ++ '-' :: (b ++ '-' :: (c ++ '-' :: (d ++ '-' :: e))) ∧
      a ++ (b ++ (c ++ (d ++ e))) = hexDigits 32 id.bits.toNat := by
  have hlength := length_hexDigits 32 id.bits.toNat
  generalize hdigits : hexDigits 32 id.bits.toNat = digits at hlength
  refine ⟨digits.take 8, (digits.drop 8).take 4, (digits.drop 12).take 4, (digits.drop 16).take 4,
    digits.drop 20, by simp [hlength], by simp [hlength], by simp [hlength], by simp [hlength],
    by simp [hlength], by simp [toChars, hdigits], ?_⟩
  have hrest (m n : Nat) : (digits.drop m).take n ++ digits.drop (m + n) = digits.drop m := by
    rw [← List.drop_drop, List.take_append_drop]
  rw [hrest 16 4, hrest 12 4, hrest 8 4, List.take_append_drop]

theorem ofText?_toText (id : Uuid) : ofText? id.toText = some id := by
  obtain ⟨a, b, c, d, e, ha, hb, hc, hd, he, hchars, hdigits⟩ := id.toChars_eq
  have htext : id.toText.toList = id.toChars := String.toList_ofList
  have hlength : id.toChars.length = 36 := by simp [hchars, ha, hb, hc, hd, he]
  have hbare : unwrap id.toChars = id.toChars := by simp [unwrap, hlength]
  rw [ofText?, htext, if_neg (by omega), hbare, hchars, ungroup?_groups ha hb hc hd he, hdigits,
    Option.bind_some, ofDigits?_hexDigits]

end Uuid

end SignalDesk
