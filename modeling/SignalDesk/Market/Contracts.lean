/-!
# Sides and contract counts

A binary market trades YES and NO contracts. Counts are 64-bit words; sums that do not fit stay at
the largest word.
-/

namespace SignalDesk

inductive Side where
  | yes
  | no
  deriving DecidableEq

namespace Side

def opposite : Side → Side
  | yes => no
  | no => yes

def dominant (yesContracts noContracts : UInt64) : Side :=
  if yesContracts < noContracts then no else yes

/-- The sign that turns a magnitude into conviction on a side. -/
def sign : Side → Float
  | yes => 1.0
  | no => -1.0

def toText : Side → String
  | yes => "yes"
  | no => "no"

def ofText? (text : String) : Option Side :=
  if text == "yes" then some yes else if text == "no" then some no else none

instance : ToString Side := ⟨toText⟩

end Side

abbrev Contracts := UInt64

namespace Contracts

/-- The sum of two counts, or the largest count. -/
def add (a b : Contracts) : Contracts :=
  if a.toNat + b.toNat < UInt64.size then a + b else UInt64.ofNat (UInt64.size - 1)

def sum (counts : List Contracts) : Contracts := counts.foldl add 0

theorem toNat_add (a b : Contracts) : (add a b).toNat = Nat.min (a.toNat + b.toNat) (UInt64.size - 1) := by
  unfold add Nat.min
  split <;> rename_i h
  · rw [UInt64.toNat_add]
    simp only [UInt64.size] at h ⊢
    omega
  · simp only [UInt64.size] at h ⊢
    simp
    omega

end Contracts

end SignalDesk
