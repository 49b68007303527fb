import SignalDesk.Sha1
import SignalDesk.Hex

/-!
# Universally unique ids

An id is 128 bits. It is written as hexadecimal digits in five groups, and read in that form or
without hyphens, in braces or as a URN. Ids made from a name are the same on every run.
-/

namespace SignalDesk

structure Uuid where
  bits : BitVec 128
  deriving DecidableEq

namespace Uuid

/-- The id of a name in a namespace: the first half of the digest, marked as version 5. -/
def ofName (space : Uuid) (name : String) : Uuid :=
  let message := Sha1.bytesOfNat 16 space.bits.toNat ++ name.toUTF8.toList
  let bits := (Sha1.digest message).extractLsb' 32 128
  ⟨bits &&& ~~~(0xF000C000 <<< 48 : BitVec 128) ||| (0x50008000 <<< 48 : BitVec 128)⟩

/-- Lower case digits in groups of 8, 4, 4, 4 and 12. -/
def toChars (id : Uuid) : List Char :=
  let digits := hexDigits 32 id.bits.toNat
  digits.take 8 ++ '-' :: (digits.drop 8).take 4 ++ '-' :: (digits.drop 12).take 4 ++
    '-' :: (digits.drop 16).take 4 ++ '-' :: digits.drop 20

def toText (id : Uuid) : String := String.ofList id.toChars

instance : ToString Uuid := ⟨toText⟩

def ofDigits? (digits : List Char) : Option Uuid := do
  let value ← hexNumber? digits
  if digits.length = 32 then return ⟨BitVec.ofNat 128 value⟩ else none

def ungroup? (text : List Char) : Option (List Char) :=
  if text.length = 36 ∧ [8, 13, 18, 23].all fun i => text[i]? == some '-' then
    some (text.take 8 ++ (text.drop 9).take 4 ++ (text.drop 14).take 4 ++ (text.drop 19).take 4 ++
      text.drop 24)
  else none

/-- The grouped digits inside braces or after `urn:uuid:`, in any case. -/
def unwrap (text : List Char) : List Char :=
  if text.length = 38 ∧ text.head? = some '\x7b' ∧ text.getLast? = some '\x7d' then
    (text.drop 1).dropLast
  else if text.length = 45 ∧ (text.take 9).map Char.toLower = "urn:uuid:".toList then text.drop 9
  else text

def ofText? (text : String) : Option Uuid :=
  let text := text.toList
  if text.length = 32 then ofDigits? text else (ungroup? (unwrap text)).bind ofDigits?

end Uuid

end SignalDesk
