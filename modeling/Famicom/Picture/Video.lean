import Famicom.Picture.Flags
import Famicom.Picture.Memory
import Famicom.Picture.ScrollAddress

/-!
# The picture unit as the processor sees it

Eight addresses give the processor the unit's registers, and through them its memory.  Reading one
can change the unit: the status register clears the vblank flag and the write toggle, the data
register moves the address along and returns, for all but the palette, what the read before it
fetched.
-/

namespace Famicom.Picture

/-- The registers of the unit. -/
structure Registers where
  control : Control := {}
  mask : Mask := {}
  status : Status := .initial
  /-- the index of the next access to the sprite list -/
  spriteIndex : UInt8 := 0
  /-- the address in use -/
  v : ScrollAddress := .zero
  /-- the address being set up -/
  t : ScrollAddress := .zero
  /-- the column within a tile at which the picture starts -/
  fineX : UInt8 := 0
  /-- the next write to the scroll or address register is the second of a pair -/
  toggle : Bool := false
  /-- what the last data read fetched -/
  readBuffer : UInt8 := 0
  lastWritten : UInt8 := 0
  nmiPending : Bool := false
  deriving DecidableEq, Repr, Inhabited

namespace Registers

/-- The last line is out: vblank begins, and with it, if it is wanted, an interrupt. -/
def enterVblank (r : Registers) : Registers :=
  { r with
    status := { r.status with inVblank := true }
    nmiPending := r.nmiPending || r.control.nmiEnabled }

/-- Moves the data address along. -/
def advance (r : Registers) : Registers := { r with v := r.v.advance r.control.step }

/-- A write to the control register.  Asking for interrupts during vblank raises one at once. -/
def writeControl (r : Registers) (byte : UInt8) : Registers :=
  let control := Control.ofByte byte
  { r with
    control := control
    t := { r.t with tableX := control.tableX, tableY := control.tableY }
    nmiPending := r.nmiPending ||
      (!r.control.nmiEnabled && control.nmiEnabled && r.status.inVblank) }

/-- A write to the scroll register: the column first, then the line. -/
def writeScroll (r : Registers) (byte : UInt8) : Registers :=
  let fine : Fin 8 := ⟨byte.toNat % 8, Nat.mod_lt _ (by decide)⟩
  let coarse : Fin 32 := ⟨byte.toNat / 8, by have : byte.toNat < 256 := byte.toNat_lt; omega⟩
  if r.toggle then { r with t := { r.t with fineY := fine, coarseY := coarse }, toggle := false }
  else { r with t := { r.t with coarseX := coarse }, fineX := .ofNat fine, toggle := true }

/-- A write to the address register: the high byte first, then the low one, which puts the address
to use. -/
def writeAddress (r : Registers) (byte : UInt8) : Registers :=
  if r.toggle then
    let t := ScrollAddress.ofNat (r.t.toNat / 256 % 128 * 256 + byte.toNat)
    { r with t := t, v := t, toggle := false }
  else
    { r with t := .ofNat (byte.toNat % 64 * 256 + r.t.toNat % 256), toggle := true }

end Registers

/-- The registers as the processor names them, in the order of their addresses. -/
inductive RegisterName where
  | control | mask | status | spriteIndex | spriteData | scroll | address | data
  deriving DecidableEq, Repr

/-- The register at an address; the eight repeat. -/
def RegisterName.ofAddress (a : UInt16) : RegisterName :=
  match a.toNat % 8 with
  | 0 => control
  | 1 => mask
  | 2 => status
  | 3 => spriteIndex
  | 4 => spriteData
  | 5 => scroll
  | 6 => address
  | _ => data

/-- The picture unit without the part that draws: memory and registers. -/
structure Video where
  memory : Memory
  regs : Registers

namespace Video

variable {κ : Type} [Cartridge κ]

/-- The unit after power-on. -/
def initial (layout : Layout) : Video := ⟨.empty layout, {}⟩

/-- A reset leaves the memory alone. -/
def reset (u : Video) : Video := { u with regs := {} }

def setLayout (u : Video) (layout : Layout) : Video :=
  { u with memory := u.memory.setLayout layout }

/-- Takes the waiting interrupt, if there is one. -/
def takeNmi (u : Video) : Bool × Video :=
  (u.regs.nmiPending, { u with regs := { u.regs with nmiPending := false } })

/-- The byte at an address of the unit's memory. -/
def readMemory (u : Video) (cart : κ) (address : UInt16) : UInt8 :=
  u.memory.read cart u.regs.mask.colourMask address

def colour (u : Video) (palette pixel : UInt8) : UInt8 :=
  u.memory.colour u.regs.mask.colourMask palette pixel

def inPalette (address : UInt16) : Bool := 0x3F00 ≤ Memory.wrapAddress address

/-- What a register reads as. -/
def peekRegister (u : Video) (cart : κ) : RegisterName → UInt8
  | .status => (u.regs.status.toByte &&& 0xE0) ||| (u.regs.lastWritten &&& 0x1F)
  | .spriteData => u.memory.spriteByte u.regs.spriteIndex
  | .data => if inPalette u.regs.v.word then u.readMemory cart u.regs.v.word else u.regs.readBuffer
  | _ => 0

/-- What reading a register does.  Below the palette lie nametables, and they fill the buffer when
the palette is read. -/
def afterRead (u : Video) (cart : κ) : RegisterName → Video
  | .status => { u with regs :=
      { u.regs with status := { u.regs.status with inVblank := false }, toggle := false } }
  | .data =>
    let v := u.regs.v.word
    let fetched := u.readMemory cart (if inPalette v then v - 0x1000 else v)
    { u with regs := { u.regs with readBuffer := fetched }.advance }
  | _ => u

/-- Reads a register: the byte, and the unit afterwards.  Only the palette does not come a read
late. -/
def readRegister (u : Video) (cart : κ) : RegisterName → UInt8 × Video
  | .status => (u.peekRegister cart .status, u.afterRead cart .status)
  | .spriteData => (u.memory.spriteByte u.regs.spriteIndex, u)
  | .data =>
    let v := u.regs.v.word
    let byte := if inPalette v then u.readMemory cart v else u.regs.readBuffer
    (byte, u.afterRead cart .data)
  | _ => (0, u)

theorem readRegister_eq (u : Video) (cart : κ) (name : RegisterName) :
    u.readRegister cart name = (u.peekRegister cart name, u.afterRead cart name) := by
  cases name <;> rfl

/-- Writes a register; what that does to the cartridge is `writeThrough`. -/
def writeRegister (u : Video) (name : RegisterName) (byte : UInt8) : Video :=
  let u := { u with regs := { u.regs with lastWritten := byte } }
  match name with
  | .control => { u with regs := u.regs.writeControl byte }
  | .mask => { u with regs := { u.regs with mask := .ofByte byte } }
  | .status => u
  | .spriteIndex => { u with regs := { u.regs with spriteIndex := byte } }
  | .spriteData =>
    { memory := u.memory.setSpriteByte u.regs.spriteIndex byte
      regs := { u.regs with spriteIndex := u.regs.spriteIndex + 1 } }
  | .scroll => { u with regs := u.regs.writeScroll byte }
  | .address => { u with regs := u.regs.writeAddress byte }
  | .data => { memory := u.memory.write u.regs.v.word byte, regs := u.regs.advance }

/-- What writing a register does to the cartridge, which only the data register reaches. -/
def writeThrough (u : Video) (cart : κ) (name : RegisterName) (byte : UInt8) : κ :=
  match name with
  | .data => Memory.writeCartridge cart u.regs.v.word byte
  | _ => cart

/-- Fills the sprite list from a page of the processor's memory. -/
def transfer (u : Video) (source : UInt8 → UInt8) : Video :=
  { u with memory := u.memory.fillSprites u.regs.spriteIndex source }

end Video

end Famicom.Picture
