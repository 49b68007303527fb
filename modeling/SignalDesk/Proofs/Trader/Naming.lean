import SignalDesk.Proofs.Engine.Attempts
import SignalDesk.Proofs.Numeral

/-!
# The names of positions

The id of a position is made from a name that puts the instrument, the time and the number of the entry
in a row. An instrument may contain anything, but the numbers contain no separator, so that a name can
be taken apart again. A trader numbers its entries one after the other, given up or not.
-/

namespace SignalDesk

private theorem append_separator_inj {separator : Char} {front front' back back' : List Char}
    (hback : separator ∉ back) (hback' : separator ∉ back') :
    front ++ separator :: back = front' ++ separator :: back' ↔ front = front' ∧ back = back' := by
  refine ⟨fun h => ?_, fun ⟨hfront, hlast⟩ => by rw [hfront, hlast]⟩
  have hlast (front : List Char) {back : List Char} (h : separator ∉ back) :
      ((front ++ separator :: back).reverse.takeWhile fun c => c != separator) = back.reverse := by
    rw [List.reverse_append, List.reverse_cons, List.append_assoc, List.singleton_append]
    refine takeWhile_append (fun c hc => bne_iff_ne.2 ?_) (notNext_cons (bne_self_eq_false _))
    rintro rfl
    exact h (List.mem_reverse.1 hc)
  have hsame : back = back' := by
    rw [← List.reverse_inj, ← hlast front hback, h, hlast front' hback']
  subst hsame
  exact ⟨List.append_cancel_right h, rfl⟩

private theorem colon_notMem_repr (n : Nat) : ':' ∉ n.repr.toList := by
  rw [Nat.toList_repr]
  intro h
  exact absurd (Nat.isDigit_of_mem_toDigits (by decide) (by decide) h) (by decide)

private theorem colon_notMem_int (n : Int) : ':' ∉ n.repr.toList := by
  cases n with
  | ofNat n => exact colon_notMem_repr n
  | negSucc n =>
    change ':' ∉ ("-" ++ n.succ.repr).toList
    rw [String.toList_append, List.mem_append]
    exact fun h => h.elim (by decide) (colon_notMem_repr _)

private theorem positionName_toList (instrument : String) (ts : Timestamp) (entry : UInt64) :
    (positionName instrument ts entry).toList =
      instrument.toList ++ ':' :: (Int.repr ts).toList ++ ':' :: entry.toNat.repr.toList := by
  change (instrument ++ ":" ++ Int.repr ts ++ ":" ++ entry.toNat.repr).toList = _
  have hcolon : (":" : String).toList = [':'] := by decide
  simp only [String.toList_append, hcolon, List.append_assoc, List.cons_append, List.nil_append]

/-- A name says which entry it is of. -/
theorem positionName_inj {instrument instrument' : String} {ts ts' : Timestamp}
    {entry entry' : UInt64} :
    positionName instrument ts entry = positionName instrument' ts' entry' ↔
      instrument = instrument' ∧ ts = ts' ∧ entry = entry' := by
  rw [String.ext_iff, positionName_toList, positionName_toList,
    append_separator_inj (colon_notMem_repr _) (colon_notMem_repr _),
    append_separator_inj (colon_notMem_int _) (colon_notMem_int _), ← String.ext_iff,
    ← String.ext_iff, ← String.ext_iff, Int.repr_inj, Nat.repr_inj, UInt64.toNat_inj, and_assoc]

namespace Trader

open Act Plan

/-- A trader of an instrument that has made a number of entries. -/
def Counts (instrument : String) (entries : UInt64) (trader : Trader) : Prop :=
  trader.instrument = instrument ∧ trader.entries = entries

/-- A trader of an instrument that may have made one more entry. -/
def Advances (instrument : String) (entries : UInt64) (trader : Trader) : Prop :=
  trader.Counts instrument entries ∨ trader.Counts instrument (entries + 1)

variable {instrument : String} {entries : UInt64} {trader : Trader}

theorem Counts.exitPlan_keeps (h : trader.Counts instrument entries) (quote : Option Quote)
    (ts : Timestamp) : (exitPlan quote ts trader).Keeps (Counts instrument entries) :=
  Trader.exitPlan_keeps h h quote ts

theorem Counts.entryPlan_keeps (h : trader.Counts instrument entries) (composite : Composite)
    (quote : Option Quote) :
    (entryPlan composite quote trader).Keeps (Advances instrument entries) := by
  obtain ⟨hinstrument, hentries⟩ := h
  have hnext : trader.entries + 1 = entries + 1 := by rw [hentries]
  exact Trader.entryPlan_keeps (.inl ⟨hinstrument, hentries⟩) (.inr ⟨hinstrument, hnext⟩)
    fun _ _ _ _ _ => .inr ⟨hinstrument, hnext⟩

end Trader

namespace Desk

/-- The work on a record makes one entry at most, given up or not. -/
theorem onRecord_advances {desk : Desk} {instrument : String} {entries : UInt64}
    (h : desk.trader.Counts instrument entries) (composer : Composer) (record : Record)
    (account : Account) :
    (onRecord composer record (desk, account)).state.1.trader.Advances instrument entries := by
  have hkeeps : (recordPlan composer record desk).Keeps fun d => d.trader.Advances instrument entries :=
    recordPlan_leads (fun _ => .inl) (fun _ _ _ h => h) (fun _ _ _ h => h) (fun _ h => h)
      (fun quote ts _ h => h.exitPlan_keeps quote ts)
      (fun composite quote _ _ h => h.entryPlan_keeps composite quote) composer h
  exact hkeeps.run desk account

end Desk

end SignalDesk
