/-!
# SHA-1

The digest of a byte string, as 160 bits. Used for name-based ids only.
-/

namespace SignalDesk.Sha1

structure State where
  a : UInt32
  b : UInt32
  c : UInt32
  d : UInt32
  e : UInt32

def initial : State := ⟨0x67452301, 0xEFCDAB89, 0x98BADCFE, 0x10325476, 0xC3D2E1F0⟩

def rotateLeft (x n : UInt32) : UInt32 := (x <<< n) ||| (x >>> (32 - n))

def bytesOfNat (count n : Nat) : List UInt8 :=
  (List.range count).reverse.map fun i => (n / Nat.pow 256 i).toUInt8

/-- The message followed by a one bit, zeros and its length in bits, in whole blocks. -/
def pad (message : List UInt8) : List UInt8 :=
  let zeros := (119 - message.length % 64) % 64
  message ++ 0x80 :: List.replicate zeros 0 ++ bytesOfNat 8 (8 * message.length)

def words : List UInt8 → List UInt32
  | a :: b :: c :: d :: rest =>
    ((a.toUInt32 <<< 24) ||| (b.toUInt32 <<< 16) ||| (c.toUInt32 <<< 8) ||| d.toUInt32) :: words rest
  | _ => []

/-- Puts `count` more words in front of a message schedule kept newest first. -/
def extendSchedule : Nat → List UInt32 → List UInt32
  | 0, schedule => schedule
  | count + 1, schedule =>
    let word (i : Nat) := schedule.getD (i - 1) 0
    extendSchedule count (rotateLeft (word 3 ^^^ word 8 ^^^ word 14 ^^^ word 16) 1 :: schedule)

def schedule (block : List UInt32) : List UInt32 := (extendSchedule 64 block.reverse).reverse

def mix (round : Nat) (b c d : UInt32) : UInt32 :=
  if round < 20 then ((b &&& c) ||| (~~~b &&& d)) + 0x5A827999
  else if round < 40 then (b ^^^ c ^^^ d) + 0x6ED9EBA1
  else if round < 60 then ((b &&& c) ||| (b &&& d) ||| (c &&& d)) + 0x8F1BBCDC
  else (b ^^^ c ^^^ d) + 0xCA62C1D6

def step (state : State) (word : UInt32 × Nat) : State :=
  let mixed := rotateLeft state.a 5 + mix word.2 state.b state.c state.d + state.e + word.1
  ⟨mixed, state.a, rotateLeft state.b 30, state.c, state.d⟩

def compress (state : State) (block : List UInt32) : State :=
  let final := (schedule block).zipIdx.foldl step state
  ⟨state.a + final.a, state.b + final.b, state.c + final.c, state.d + final.d, state.e + final.e⟩

/-- Compresses the blocks of a padded message, given its words. -/
def absorb (state : State) (message : List UInt32) : State :=
  if message.length < 16 then state
  else absorb (compress state (message.take 16)) (message.drop 16)
termination_by message.length
decreasing_by simp; omega

def digest (message : List UInt8) : BitVec 160 :=
  let state := absorb initial (words (pad message))
  state.a.toBitVec ++ state.b.toBitVec ++ state.c.toBitVec ++ state.d.toBitVec ++ state.e.toBitVec

end SignalDesk.Sha1
