import Famicom.Picture.Video

/-!
# The sprites of a line

While a line is drawn the unit goes through the sprite list and keeps the first eight sprites that
reach the next line (`evaluate`).  After the line it fetches their bit planes into eight slots
(`fetch`).  On the next line each slot counts down to its column and then shifts out eight pixels;
of several opaque ones the first slot's is shown.
-/

namespace Famicom.Picture

/-- A sprite found for the next line: which of its lines is shown, and its height when found. -/
structure FoundSprite where
  entry : SpriteEntry := {}
  row : UInt8 := 0
  height : UInt8 := 0
  deriving DecidableEq, Repr, Inhabited

/-- The shift registers of a sprite and where it stands on its line. -/
structure SpriteSlot where
  planeLow : UInt8 := 0
  planeHigh : UInt8 := 0
  palette : UInt8 := 0
  behind : Bool := false
  /-- the pixels still to be shown, once the sprite has begun -/
  active : UInt8 := 0
  /-- the columns to go until it begins -/
  countdown : UInt8 := 0
  deriving DecidableEq, Repr, Inhabited

namespace SpriteSlot

def pixel (s : SpriteSlot) : UInt8 := atBit (bit s.planeHigh 7) 1 ||| atBit (bit s.planeLow 7) 0

/-- The slot shows a pixel that is not transparent. -/
def isOpaque (s : SpriteSlot) : Bool := 0 < s.active && s.pixel != 0

/-- One column on. -/
def advance (s : SpriteSlot) : SpriteSlot :=
  if 0 < s.active then
    { s with
      active := s.active - 1
      planeLow := s.planeLow <<< 1
      planeHigh := s.planeHigh <<< 1 }
  else
    { s with
      countdown := s.countdown - 1
      active := if s.countdown - 1 = 0 then 8 else 0 }

/-- The slot waits for a column; a sprite at the left edge begins at once. -/
def place (s : SpriteSlot) (x : UInt8) : SpriteSlot :=
  { s with countdown := x, active := if x = 0 then 8 else 0 }

end SpriteSlot

/-- The sprites of this line and of the next. -/
structure SpriteUnit where
  /-- the sprites found for the next line -/
  found : Vector FoundSprite 8 := .replicate 8 {}
  foundCount : Nat := 0
  /-- the first sprite of the list is among those found -/
  foundZero : Bool := false
  /-- the slots drawn from on this line -/
  slots : Vector SpriteSlot 8 := .replicate 8 {}
  slotCount : Nat := 0
  /-- the first slot holds the first sprite of the list -/
  slotZero : Bool := false
  /-- the sprite whose bit planes are being fetched -/
  current : SpriteEntry := {}
  /-- the line of it that is fetched, counted as its tile stores it -/
  fetchRow : UInt16 := 0
  fetchHeight : UInt16 := 8

namespace SpriteUnit

/-! ### Finding the sprites of the next line -/

/-- The sprites found for this line are drawn now, and none are found yet for the next. -/
def startLine (u : SpriteUnit) : SpriteUnit :=
  { u with slotCount := u.foundCount, slotZero := u.foundZero, foundCount := 0, foundZero := false }

/-- Neither this line nor the next has sprites. -/
def clearCounts (u : SpriteUnit) : SpriteUnit :=
  { u with slotCount := 0, slotZero := false, foundCount := 0, foundZero := false }

/-- Forgets what was found, but not how much. -/
def clearFound (u : SpriteUnit) : SpriteUnit := { u with found := .replicate 8 {} }

/-- A sprite of the given height reaches the line after `line`. -/
def inRange (entry : SpriteEntry) (height line : Nat) : Bool :=
  entry.y.toNat ≤ line && line < entry.y.toNat + height

/-- Adds a sprite to those found, if there is room. -/
def add (u : SpriteUnit) (index : Fin 64) (sprite : FoundSprite) : SpriteUnit :=
  if h : u.foundCount < 8 then
    { u with
      found := u.found.set u.foundCount sprite
      foundCount := u.foundCount + 1
      foundZero := u.foundZero || index == 0 }
  else u

/-- There is no room for another sprite. -/
def isFull (u : SpriteUnit) : Bool := 8 ≤ u.foundCount

/-! ### Fetching -/

/-- The line of a sprite's tile that shows on a line of the picture. -/
def tileRow (s : FoundSprite) : UInt8 := if s.entry.flippedY then s.height - 1 - s.row else s.row

/-- Takes up the sprite of a slot. -/
def takeUp (u : SpriteUnit) (slot : Fin 8) : SpriteUnit :=
  let s := u.found[slot]
  { u with
    current := s.entry
    fetchHeight := s.height.toUInt16
    fetchRow := (tileRow s).toUInt16 }

/-- The address of the first bit plane of the sprite taken up.  A tall sprite is a pair of tiles, in
the table that the lowest bit of its number chooses. -/
def planeAddress (u : SpriteUnit) (c : Control) : UInt16 :=
  let tile := u.current.tile.toUInt16
  if u.fetchHeight = 16 then
    let lower : UInt16 := if 8 ≤ u.fetchRow then 1 else 0
    (tile &&& 1) <<< 12 ||| ((tile &&& 0xFE) + lower) <<< 4 ||| u.fetchRow &&& 7
  else c.spriteBase ||| tile <<< 4 ||| u.fetchRow

/-- A bit plane as the sprite taken up shows it. -/
def orient (u : SpriteUnit) (byte : UInt8) : UInt8 :=
  if u.current.flippedX then reverseBits byte else byte

def slot (u : SpriteUnit) (i : Fin 8) : SpriteSlot := u.slots[i]

def modifySlot (u : SpriteUnit) (i : Fin 8) (f : SpriteSlot → SpriteSlot) : SpriteUnit :=
  { u with slots := u.slots.set i (f (u.slot i)) }

/-- One of the eight steps in which a slot is filled. -/
def fetch {κ : Type} [Cartridge κ] (u : SpriteUnit) (cart : κ) (m : Memory) (r : Registers)
    (slot : Fin 8) (step : Nat) : SpriteUnit :=
  if slot.val < u.foundCount then
    match step with
    | 1 => u.takeUp slot
    | 2 => u.modifySlot slot fun s =>
      { s with palette := u.current.palette, behind := u.current.behind }
    | 3 => u.modifySlot slot fun s => s.place u.current.x
    | 5 =>
      let byte := u.orient (m.read cart r.mask.colourMask (u.planeAddress r.control))
      u.modifySlot slot fun s => { s with planeLow := byte }
    | 7 =>
      let byte := u.orient (m.read cart r.mask.colourMask (u.planeAddress r.control + 8))
      u.modifySlot slot fun s => { s with planeHigh := byte }
    | _ => u
  else u

/-! ### Drawing -/

/-- The first slot with a pixel that is not transparent. -/
def front (u : SpriteUnit) : Option (Fin 8) :=
  if u.slotCount = 0 then none
  else (List.finRange 8).find? fun i => i.val < u.slotCount && (u.slot i).isOpaque

/-- One column on, in every slot that is drawn from. -/
def advance (u : SpriteUnit) : SpriteUnit :=
  if u.slotCount = 0 then u
  else { u with slots := u.slots.mapFinIdx fun i s _ => if i < u.slotCount then s.advance else s }

end SpriteUnit

end Famicom.Picture
