import Famicom.Error
import Famicom.Word

/-!
# Game Genie codes

A code is six or eight letters of a sixteen-letter alphabet, each worth four bits.  Its bits are
scattered over an address in the upper half of the address space, the byte to be seen there, and,
with eight letters, the byte that must be there for the patch to take hold.
-/

namespace Famicom

/-- A patch over the cartridge: the byte seen at an address, always or only in place of another. -/
structure GameGenie where
  address : UInt16
  data : UInt8
  compare : Option UInt8
  deriving DecidableEq, Repr

namespace GameGenie

/-- The letters of a code, in the order of their values. -/
def alphabet : List Char :=
  ['A', 'P', 'Z', 'L', 'G', 'I', 'T', 'Y', 'E', 'O', 'X', 'U', 'K', 'S', 'V', 'N']

/-- The value of a letter, large or small. -/
def letterValue? (c : Char) : Option UInt8 := (alphabet.idxOf? c.toUpper).map .ofNat

/-- The address in the six first letters of a code: three bits and one bit of each of four
letters, as the code scatters them. -/
def addressOf (n1 n2 n3 n4 n5 : UInt8) : UInt16 :=
  (0x8000 : UInt16) ||| ((n3 &&& 7).toUInt16 <<< 12) |||
    ((n5 &&& 7).toUInt16 <<< 8) ||| ((n4 &&& 8).toUInt16 <<< 8) |||
    ((n2 &&& 7).toUInt16 <<< 4) ||| ((n1 &&& 8).toUInt16 <<< 4) |||
    (n4 &&& 7).toUInt16 ||| (n3 &&& 8).toUInt16

/-- A byte from two letters and a third that lends its top bit to the low digit. -/
def byteFrom (low high top : UInt8) : UInt8 :=
  ((high &&& 7) <<< 4) ||| ((low &&& 8) <<< 4) ||| (low &&& 7) ||| (top &&& 8)

/-- The patch in the values of six or eight letters. -/
def ofLetters? : List UInt8 → Option GameGenie
  | [n0, n1, n2, n3, n4, n5] => some ⟨addressOf n1 n2 n3 n4 n5, byteFrom n0 n1 n5, none⟩
  | [n0, n1, n2, n3, n4, n5, n6, n7] =>
    some ⟨addressOf n1 n2 n3 n4 n5, byteFrom n0 n1 n7, some (byteFrom n6 n7 n5)⟩
  | _ => none

/-- Reads a code; a refused code is reported as it was given. -/
def decode (code : String) : Except Error GameGenie :=
  match (code.toList.mapM letterValue?).bind ofLetters? with
  | some patch => .ok patch
  | none => .error (.invalidCode code)

/-- The byte seen at an address where the cartridge holds `byte`. -/
def patch (g : GameGenie) (address : UInt16) (byte : UInt8) : UInt8 :=
  if address = g.address ∧ (g.compare = none ∨ g.compare = some byte) then g.data else byte

end GameGenie

end Famicom
