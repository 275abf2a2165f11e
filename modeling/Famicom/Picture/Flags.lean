import Famicom.Word

/-!
# The flag registers of the picture unit

Control, mask and status are bytes on the bus and eight (or three) flags inside.
-/

namespace Famicom.Picture

/-- The names of the flags that are set, the lowest first, with bars between them. -/
def flagText (flags : List (Bool × String)) : String :=
  " | ".intercalate ((flags.filter (·.1)).map (·.2))

/-- How the picture unit works, as the processor last set it. -/
structure Control where
  /-- an interrupt announces the end of the picture -/
  nmiEnabled : Bool := false
  masterSelect : Bool := false
  /-- sprites are sixteen lines high -/
  tallSprites : Bool := false
  /-- the background takes its tiles from the second pattern table -/
  backgroundTable : Bool := false
  /-- small sprites take their tiles from the second pattern table -/
  spriteTable : Bool := false
  /-- data accesses move down a row instead of along it -/
  stepDown : Bool := false
  tableY : Bool := false
  tableX : Bool := false
  deriving DecidableEq, Repr, Inhabited

namespace Control

def ofByte (b : UInt8) : Control :=
  ⟨bit b 7, bit b 6, bit b 5, bit b 4, bit b 3, bit b 2, bit b 1, bit b 0⟩

def toByte (c : Control) : UInt8 :=
  byteOf c.nmiEnabled c.masterSelect c.tallSprites c.backgroundTable c.spriteTable c.stepDown
    c.tableY c.tableX

@[simp] theorem toByte_ofByte (b : UInt8) : (ofByte b).toByte = b := byteOf_bit b

/-- How far a data access moves the address. -/
def step (c : Control) : Nat := if c.stepDown then 32 else 1

/-- Where the tiles of small sprites start. -/
def spriteBase (c : Control) : UInt16 := if c.spriteTable then 0x1000 else 0

/-- Where the tiles of the background start. -/
def backgroundBase (c : Control) : UInt16 := if c.backgroundTable then 0x1000 else 0

/-- The lines of a sprite. -/
def spriteHeight (c : Control) : Nat := if c.tallSprites then 16 else 8

def text (c : Control) : String :=
  flagText [(c.tableX, "NAME_TABLE_X"), (c.tableY, "NAME_TABLE_Y"), (c.stepDown, "VRAM_ADDR_INC"),
    (c.spriteTable, "SPR_PATTERN_ADDR"), (c.backgroundTable, "BG_PATTERN_ADDR"),
    (c.tallSprites, "SPR_SIZE"), (c.masterSelect, "MASTER_SELECT"), (c.nmiEnabled, "NMI_ENABLED")]

end Control

/-- What is shown, as the processor last set it. -/
structure Mask where
  emphasiseBlue : Bool := false
  emphasiseGreen : Bool := false
  emphasiseRed : Bool := false
  showSprites : Bool := false
  showBackground : Bool := false
  /-- sprites are shown in the leftmost column of tiles too -/
  spritesLeft : Bool := false
  /-- the background is shown in the leftmost column of tiles too -/
  backgroundLeft : Bool := false
  greyscale : Bool := false
  deriving DecidableEq, Repr, Inhabited

namespace Mask

def ofByte (b : UInt8) : Mask :=
  ⟨bit b 7, bit b 6, bit b 5, bit b 4, bit b 3, bit b 2, bit b 1, bit b 0⟩

def toByte (m : Mask) : UInt8 :=
  byteOf m.emphasiseBlue m.emphasiseGreen m.emphasiseRed m.showSprites m.showBackground
    m.spritesLeft m.backgroundLeft m.greyscale

@[simp] theorem toByte_ofByte (b : UInt8) : (ofByte b).toByte = b := byteOf_bit b

/-- The picture unit fetches and scrolls. -/
def rendering (m : Mask) : Bool := m.showBackground || m.showSprites

/-- The background is shown in column `x`. -/
def backgroundAt (m : Mask) (x : Nat) : Bool := m.showBackground && (m.backgroundLeft || 8 ≤ x)

/-- Sprites are shown in column `x`. -/
def spritesAt (m : Mask) (x : Nat) : Bool := m.showSprites && (m.spritesLeft || 8 ≤ x)

/-- The bits of a colour that get through. -/
def colourMask (m : Mask) : UInt8 := if m.greyscale then 0x30 else 0x3F

def text (m : Mask) : String :=
  flagText [(m.greyscale, "GREYSCALE_ON"), (m.backgroundLeft, "SHOW_BG_LEFT"),
    (m.spritesLeft, "SHOW_SPR_LEFT"), (m.showBackground, "SHOW_BG"), (m.showSprites, "SHOW_SPR"),
    (m.emphasiseRed, "EMP_RED"), (m.emphasiseGreen, "EMP_GREEN"), (m.emphasiseBlue, "EMP_BLUE")]

end Mask

/-- What the picture unit reports. -/
structure Status where
  /-- the picture is complete and the next has not begun -/
  inVblank : Bool
  /-- an opaque pixel of the first sprite met an opaque pixel of the background -/
  spriteZeroHit : Bool
  /-- a line had more sprites than fit -/
  spriteOverflow : Bool
  deriving DecidableEq, Repr, Inhabited

namespace Status

/-- The flags after power-on. -/
def initial : Status := ⟨true, false, false⟩

/-- The flags in the upper bits of a byte. -/
def ofByte (b : UInt8) : Status := ⟨bit b 7, bit b 6, bit b 5⟩

/-- The flags as a byte with its lower bits empty. -/
def toByte (s : Status) : UInt8 :=
  byteOf s.inVblank s.spriteZeroHit s.spriteOverflow false false false false false

@[simp] theorem ofByte_toByte (s : Status) : ofByte s.toByte = s := by
  obtain ⟨h7, h6, h5, -⟩ := bit_byteOf s.inVblank s.spriteZeroHit s.spriteOverflow
    false false false false false
  simp [ofByte, toByte, h7, h6, h5]

def text (s : Status) : String :=
  flagText [(s.spriteOverflow, "SPR_OVERFLOW"), (s.spriteZeroHit, "SPR_0_HIT"),
    (s.inVblank, "IN_VBLANK")]

end Status

end Famicom.Picture
