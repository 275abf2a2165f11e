import Famicom.Picture.Video

/-!
# The background of a line

The unit fetches the background tile by tile: the tile's number, its palette, and the two bit
planes of one of its lines.  Four shift registers of 16 bits hold two tiles; each pixel takes one
bit of each and moves them all up by one.
-/

namespace Famicom.Picture

/-- The tile being fetched and the shift registers. -/
structure Background where
  tile : UInt8 := 0
  palette : UInt8 := 0
  planeLow : UInt8 := 0
  planeHigh : UInt8 := 0
  patternLow : UInt16 := 0
  patternHigh : UInt16 := 0
  paletteLow : UInt16 := 0
  paletteHigh : UInt16 := 0
  deriving DecidableEq, Repr, Inhabited

namespace Background

/-! ### Fetching -/

section Fetch

variable {κ : Type} [Cartridge κ]

/-- Fetches the number of the tile in view. -/
def fetchTile (b : Background) (cart : κ) (m : Memory) (r : Registers) : Background :=
  { b with tile := m.read cart r.mask.colourMask r.v.tileAddress }

/-- Fetches its palette. -/
def fetchPalette (b : Background) (cart : κ) (m : Memory) (r : Registers) : Background :=
  let byte := m.read cart r.mask.colourMask r.v.attributeAddress
  { b with palette := (byte >>> r.v.attributeShift) &&& 3 }

/-- The address of the first bit plane of the line in view. -/
def planeAddress (b : Background) (r : Registers) : UInt16 :=
  r.control.backgroundBase + (b.tile.toUInt16 <<< 4) + .ofNat r.v.fineY.val

def fetchLow (b : Background) (cart : κ) (m : Memory) (r : Registers) : Background :=
  { b with planeLow := m.read cart r.mask.colourMask (b.planeAddress r) }

def fetchHigh (b : Background) (cart : κ) (m : Memory) (r : Registers) : Background :=
  { b with planeHigh := m.read cart r.mask.colourMask (b.planeAddress r + 8) }

end Fetch

/-! ### Shifting -/

/-- Eight equal bits. -/
def eightOf (v : Bool) : UInt16 := if v then 0xFF else 0

/-- Puts the fetched tile into the upper halves of the registers, and nothing into the lower. -/
def loadFirst (b : Background) : Background :=
  { b with
    patternLow := b.planeLow.toUInt16 <<< 8
    patternHigh := b.planeHigh.toUInt16 <<< 8
    paletteLow := eightOf (bit b.palette 0) <<< 8
    paletteHigh := eightOf (bit b.palette 1) <<< 8 }

/-- Puts the fetched tile into the lower halves of the registers. -/
def load (b : Background) : Background :=
  { b with
    patternLow := b.patternLow &&& 0xFF00 ||| b.planeLow.toUInt16
    patternHigh := b.patternHigh &&& 0xFF00 ||| b.planeHigh.toUInt16
    paletteLow := b.paletteLow &&& 0xFF00 ||| eightOf (bit b.palette 0)
    paletteHigh := b.paletteHigh &&& 0xFF00 ||| eightOf (bit b.palette 1) }

/-- Moves every register up by one bit. -/
def shift (b : Background) : Background :=
  { b with
    patternLow := b.patternLow <<< 1
    patternHigh := b.patternHigh <<< 1
    paletteLow := b.paletteLow <<< 1
    paletteHigh := b.paletteHigh <<< 1 }

/-- The bit of a register that is on show, `fineX` places below the top. -/
def tap (register : UInt16) (fineX : UInt8) : UInt8 :=
  ((register <<< fineX.toUInt16) >>> 15).toUInt8

/-- The value of the pixel on show. -/
def pixel (b : Background) (fineX : UInt8) : UInt8 :=
  tap b.patternHigh fineX <<< 1 ||| tap b.patternLow fineX

/-- The palette of the pixel on show. -/
def pixelPalette (b : Background) (fineX : UInt8) : UInt8 :=
  tap b.paletteHigh fineX <<< 1 ||| tap b.paletteLow fineX

end Background

end Famicom.Picture
