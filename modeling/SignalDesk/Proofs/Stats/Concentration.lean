import SignalDesk.Proofs.Stats.Moments
import SignalDesk.Proofs.Tape.Exact

/-!
# The concentration of counts

In fractions the Herfindahl index of some counts is the sum of their squares over the square of their
sum, as long as a word can hold that sum. It exceeds the index of equal counts by the deviations of the
counts, and stays below one by what each count leaves to the others. Moving contracts from a smaller
count to a larger one draws them apart, so the index does not fall.
-/

namespace SignalDesk

namespace Contracts

/-- Counts of trades: there are some, none is zero, and a word can hold their sum. -/
structure Sample (counts : List Contracts) : Prop where
  nonempty : counts ≠ []
  positive : ∀ count ∈ counts, 0 < count
  fits : (counts.map UInt64.toNat).sum < UInt64.size

/-- Some contracts move from a count to another that is not smaller. The order of counts is free. -/
inductive Transfer (before after : List Contracts) : Prop
  | intro {small large small' large' : Contracts} {rest : List Contracts} (moved : ℕ)
    (hbefore : before.Perm (small :: large :: rest)) (hafter : after.Perm (small' :: large' :: rest))
    (hle : small ≤ large) (hsmall : small'.toNat + moved = small.toNat)
    (hlarge : large'.toNat = large.toNat + moved)

private theorem sum_perm {counts other : List Contracts} (h : counts.Perm other) :
    sum counts = sum other := by
  rw [← UInt64.toNat_inj, toNat_sum, toNat_sum, (h.map UInt64.toNat).sum_eq]

theorem Transfer.length_eq {before after : List Contracts} (h : Transfer before after) :
    after.length = before.length := by
  obtain ⟨moved, hbefore, hafter, -, -, -⟩ := h
  rw [hbefore.length_eq, hafter.length_eq]
  rfl

theorem Transfer.sum_eq {before after : List Contracts} (h : Transfer before after) :
    (after.map UInt64.toNat).sum = (before.map UInt64.toNat).sum := by
  obtain ⟨moved, hbefore, hafter, -, hsmall, hlarge⟩ := h
  rw [(hbefore.map UInt64.toNat).sum_eq, (hafter.map UInt64.toNat).sum_eq]
  simp only [List.map_cons, List.sum_cons]
  omega

end Contracts

namespace Stats

open Contracts

variable {counts other : List Contracts}

def weight (count : Contracts) : ℚ := count.toNat

private theorem weight_inj {a b : Contracts} : weight a = weight b ↔ a = b := by
  rw [weight, weight, Nat.cast_inj, UInt64.toNat_inj]

theorem weight_pos {count : Contracts} (h : 0 < count) : 0 < weight count :=
  Nat.cast_pos.2 (UInt64.lt_iff_toNat_lt.1 h)

def total (counts : List Contracts) : ℚ := (counts.map weight).sum

private theorem total_eq (counts : List Contracts) :
    total counts = ((counts.map UInt64.toNat).sum : ℕ) := by
  rw [Nat.cast_list_sum, List.map_map]
  rfl

private theorem weight_le_total {count : Contracts} (h : count ∈ counts) :
    weight count ≤ total counts := by
  refine List.single_le_sum (fun x hx => ?_) _ (List.mem_map_of_mem h)
  obtain ⟨other, -, rfl⟩ := List.mem_map.1 hx
  exact Nat.cast_nonneg _

private theorem total_pos (h : Sample counts) : 0 < total counts := by
  obtain ⟨count, hcount⟩ := List.exists_mem_of_ne_nil counts h.nonempty
  exact (weight_pos (h.positive count hcount)).trans_le (weight_le_total hcount)

private theorem herfindahl_eq (h : (counts.map UInt64.toNat).sum < UInt64.size) :
    (herfindahl counts : ℚ) =
      (counts.map fun count => weight count ^ 2).sum / total counts ^ 2 := by
  have hsum : (Contracts.sum counts).toNat = (counts.map UInt64.toNat).sum := by
    rw [toNat_sum]
    omega
  have htotal : (Quantity.ofNat (Contracts.sum counts).toNat : ℚ) = total counts := by
    rw [hsum, total_eq]
    rfl
  unfold herfindahl
  simp only [htotal, sum_eq, ← sq, div_pow]
  split
  · -- without contracts the quotient is zero, too
    rename_i hzero
    have hnone : total counts = 0 := by
      rw [← htotal, hzero]
      rfl
    rw [hnone, zero_pow two_ne_zero, div_zero]
    rfl
  · simp only [div_eq_mul_inv, List.sum_map_mul_right]
    rfl

theorem herfindahl_perm (h : counts.Perm other) : (herfindahl other : ℚ) = herfindahl counts := by
  simp only [herfindahl, sum_perm h, sum_eq, (h.map _).sum_eq]

/-- The index of equal counts, and the deviations of the counts from each other. -/
theorem herfindahl_eq_add (h : Sample counts) : (herfindahl counts : ℚ) =
    1 / counts.length + comoment counts weight weight / total counts ^ 2 := by
  have htotal := (total_pos h).ne'
  have hlength : (counts.length : ℚ) ≠ 0 := by simpa using h.nonempty
  have hmean : mean counts weight = total counts / counts.length := rfl
  rw [herfindahl_eq h.fits, sum_sq_eq weight h.nonempty, hmean]
  field_simp
  ring

theorem even_le_herfindahl (h : Sample counts) : 1 / counts.length ≤ (herfindahl counts : ℚ) := by
  rw [herfindahl_eq_add h, le_add_iff_nonneg_right]
  exact div_nonneg (comoment_self_nonneg _ _) (sq_nonneg _)

theorem herfindahl_eq_even_iff (h : Sample counts) :
    (herfindahl counts : ℚ) = 1 / counts.length ↔ ∀ a ∈ counts, ∀ b ∈ counts, a = b := by
  have htotal : total counts ^ 2 ≠ 0 := pow_ne_zero 2 (total_pos h).ne'
  rw [herfindahl_eq_add h, add_eq_left, div_eq_zero_iff, or_iff_left htotal, comoment_self_eq_zero_iff]
  simp only [weight_inj]

private theorem one_sub_herfindahl (h : Sample counts) : 1 - (herfindahl counts : ℚ) =
    (counts.map fun count => weight count * (total counts - weight count)).sum / total counts ^ 2 := by
  have htotal := (total_pos h).ne'
  have hproduct (count : Contracts) : weight count * (total counts - weight count) =
      total counts * weight count + -1 * weight count ^ 2 := by ring
  rw [herfindahl_eq h.fits]
  simp only [hproduct, List.sum_map_add, List.sum_map_mul_left]
  rw [show (counts.map weight).sum = total counts from rfl]
  field_simp
  ring

private theorem excess_nonneg {count : Contracts} (h : count ∈ counts) :
    0 ≤ weight count * (total counts - weight count) :=
  mul_nonneg (Nat.cast_nonneg _) (sub_nonneg.2 (weight_le_total h))

theorem herfindahl_le_one (h : Sample counts) : (herfindahl counts : ℚ) ≤ 1 := by
  rw [← sub_nonneg, one_sub_herfindahl h]
  refine div_nonneg (List.sum_nonneg fun x hx => ?_) (sq_nonneg _)
  obtain ⟨count, hcount, rfl⟩ := List.mem_map.1 hx
  exact excess_nonneg hcount

private theorem weight_eq_total (h : Sample counts) (hone : (herfindahl counts : ℚ) = 1) :
    ∀ count ∈ counts, weight count = total counts := by
  intro count hcount
  have hnone : (counts.map fun count => weight count * (total counts - weight count)).sum = 0 := by
    have hquotient := one_sub_herfindahl h
    rw [hone, sub_self, eq_comm, div_eq_zero_iff] at hquotient
    exact hquotient.resolve_right (pow_ne_zero 2 (total_pos h).ne')
  have hnonneg : ∀ x ∈ counts.map fun count => weight count * (total counts - weight count), 0 ≤ x := by
    intro x hx
    obtain ⟨other, hother, rfl⟩ := List.mem_map.1 hx
    exact excess_nonneg hother
  have hterm := List.all_zero_of_le_zero_le_of_sum_eq_zero hnonneg hnone (List.mem_map_of_mem hcount)
  have hpositive := weight_pos (h.positive count hcount)
  exact (sub_eq_zero.1 ((mul_eq_zero.1 hterm).resolve_left hpositive.ne')).symm

theorem herfindahl_eq_one_iff (h : Sample counts) :
    (herfindahl counts : ℚ) = 1 ↔ counts.length = 1 := by
  constructor
  · intro hone
    have hall : ∀ x ∈ counts.map weight, x = total counts := by
      intro x hx
      obtain ⟨count, hcount, rfl⟩ := List.mem_map.1 hx
      exact weight_eq_total h hone count hcount
    have hsum : total counts = counts.length * total counts := by
      have hcard := List.sum_eq_card_nsmul _ _ hall
      rwa [List.length_map, nsmul_eq_mul] at hcard
    have hlength : (1 : ℚ) = counts.length :=
      mul_right_cancel₀ (total_pos h).ne' ((one_mul _).trans hsum)
    exact_mod_cast hlength.symm
  · intro hlength
    have heven := even_le_herfindahl h
    rw [hlength, Nat.cast_one, div_one] at heven
    exact le_antisymm (herfindahl_le_one h) heven

private theorem total_transfer (h : Transfer counts other) : total other = total counts := by
  rw [total_eq, total_eq, h.sum_eq]

/-- The larger of two counts gains more in its square than the smaller one loses. -/
theorem sum_sq_le_of_transfer (h : Transfer counts other) :
    (counts.map fun count => weight count ^ 2).sum ≤ (other.map fun count => weight count ^ 2).sum := by
  obtain ⟨moved, hbefore, hafter, hle, hsmall, hlarge⟩ := h
  rename_i small large small' large' rest
  have hweights : weight small ≤ weight large := Nat.cast_le.2 (UInt64.le_iff_toNat_le.1 hle)
  have hless : weight small = weight small' + moved := by
    rw [weight, ← hsmall]
    exact Nat.cast_add _ _
  have hmore : weight large' = weight large + moved := by
    rw [weight, hlarge]
    exact Nat.cast_add _ _
  have hgain : weight small' ^ 2 + weight large' ^ 2 =
      weight small ^ 2 + weight large ^ 2 + 2 * moved * (weight large - weight small + moved) := by
    rw [hmore, hless]
    ring
  have hnonneg : 0 ≤ 2 * moved * (weight large - weight small + moved) :=
    mul_nonneg (by positivity) (add_nonneg (sub_nonneg.2 hweights) (Nat.cast_nonneg _))
  rw [(hbefore.map _).sum_eq, (hafter.map _).sum_eq]
  simp only [List.map_cons, List.sum_cons]
  linarith

theorem herfindahl_le_of_transfer (hfits : (counts.map UInt64.toNat).sum < UInt64.size)
    (h : Transfer counts other) : (herfindahl counts : ℚ) ≤ herfindahl other := by
  rw [herfindahl_eq hfits, herfindahl_eq (h.sum_eq.trans_lt hfits), total_transfer h]
  exact div_le_div_of_nonneg_right (sum_sq_le_of_transfer h) (sq_nonneg _)

end Stats

end SignalDesk
