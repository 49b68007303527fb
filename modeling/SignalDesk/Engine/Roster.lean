/-!
# Rosters

A roster lists what there is for each instrument, in the order in which the instruments appeared.
-/

namespace SignalDesk

/-- At most one entry counts for each instrument: the first. -/
abbrev Roster (α : Type) : Type := List (String × α)

namespace Roster

variable {α : Type}

/-- Puts a value in the place of the one it replaces, or at the end. -/
def put (roster : Roster α) (instrument : String) (value : α) : Roster α :=
  match roster with
  | [] => [(instrument, value)]
  | (name, other) :: roster =>
    if name == instrument then (name, value) :: roster
    else (name, other) :: put roster instrument value

@[simp] theorem lookup_put_self (roster : Roster α) (instrument : String) (value : α) :
    (roster.put instrument value).lookup instrument = some value := by
  induction roster with
  | nil => simp [put]
  | cons entry roster ih =>
    rw [put]
    split
    · rename_i hname
      rw [eq_of_beq hname, List.lookup_cons_self]
    · rename_i hname
      have hne : (instrument == entry.1) = false := by
        rw [beq_eq_false_iff_ne]
        exact fun h => hname (beq_iff_eq.2 h.symm)
      rw [List.lookup_cons, hne]
      exact ih

theorem lookup_put_of_ne {instrument name : String} (h : name ≠ instrument) (roster : Roster α)
    (value : α) : (roster.put instrument value).lookup name = roster.lookup name := by
  have hne : (name == instrument) = false := beq_eq_false_iff_ne.2 h
  induction roster with
  | nil => rw [put, List.lookup_cons, hne]
  | cons entry roster ih =>
    rw [put]
    split
    · rename_i hname
      rw [List.lookup_cons, List.lookup_cons, eq_of_beq hname, hne]
    · rw [List.lookup_cons, List.lookup_cons, ih]

@[simp] theorem put_put (roster : Roster α) (instrument : String) (first second : α) :
    (roster.put instrument first).put instrument second = roster.put instrument second := by
  induction roster with
  | nil => simp [put]
  | cons entry roster ih =>
    simp only [put]
    split
    · rename_i hname
      simp [put, hname]
    · rename_i hname
      simp [put, hname, ih]

end Roster

end SignalDesk
