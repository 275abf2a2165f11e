/-!
# What a console sees of a cartridge

Two memories behind one connector: the processor's view of addresses from `0x4020` on, and the
pattern tables of the picture.  The picture has four logical nametables, two by two, and the
cartridge decides which of the four physical banks stands behind each of them; a board may change
this layout at any write.  A cartridge is a value, so two copies of it never disturb each other.
-/

namespace Famicom

/-- Which logical nametables share a bank. -/
inductive Layout where
  /-- the two tables of a row share a bank -/
  | horizontal
  /-- the two tables of a column share a bank -/
  | vertical
  /-- all tables show the first bank -/
  | oneScreenLow
  /-- all tables show the second bank -/
  | oneScreenHigh
  /-- every table has a bank of its own -/
  | fourScreen
  deriving DecidableEq, Repr, Inhabited

namespace Layout

/-- The physical banks behind the logical nametables. -/
def map : Layout → Vector (Fin 4) 4
  | horizontal => #v[0, 0, 1, 1]
  | vertical => #v[0, 1, 0, 1]
  | oneScreenLow => #v[0, 0, 0, 0]
  | oneScreenHigh => #v[1, 1, 1, 1]
  | fourScreen => #v[0, 1, 2, 3]

def banks (m : Layout) : List (Fin 4) := m.map.toList

def name : Layout → String
  | horizontal => "HORIZONTAL"
  | vertical => "VERTICAL"
  | oneScreenLow => "ONESCREEN_LO"
  | oneScreenHigh => "ONESCREEN_HI"
  | fourScreen => "FOUR_SCREEN"

end Layout

/-- What a board has to say about a write. -/
inductive Remark where
  /-- a bank was asked for that the board does not have; the last one stands in -/
  | bankOutOfRange (bank banks : Nat)
  deriving DecidableEq, Repr

/-- A cartridge as the console uses it. -/
class Cartridge (κ : Type) where
  read : κ → UInt16 → UInt8
  write : κ → UInt16 → UInt8 → κ
  /-- what there is to say about a write, before it is made -/
  remark : κ → UInt16 → UInt8 → Option Remark := fun _ _ _ => none
  readPattern : κ → UInt16 → UInt8
  writePattern : κ → UInt16 → UInt8 → κ
  layout : κ → Layout
  reset : κ → κ

end Famicom
