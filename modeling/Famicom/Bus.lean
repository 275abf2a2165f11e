import Famicom.GameGenie
import Famicom.Joypad
import Famicom.Picture.Video

/-!
# The bus

What the processor finds at its addresses: 2 KiB of memory repeated up to `0x1FFF`, the registers
of the picture unit repeated up to `0x3FFF`, the transfer register and the joypads, and from
`0x4020` on the cartridge, seen through the Game Genie.  `Bus.peek` is what an address reads as,
`Bus.read` what reading it does; addresses where nothing answers read as zero.
-/

namespace Famicom

open Picture (RegisterName Video)

/-- Everything that the processor's addresses reach. -/
structure Bus (κ : Type) where
  cartridge : κ
  video : Video
  ram : Vector UInt8 0x800 := .replicate _ 0
  /-- the pads in the two sockets -/
  pads : Vector (Option Joypad) 2 := .replicate _ none
  gameGenie : Option GameGenie := none
  /-- the cycles for which transfers have held the bus since they were last accounted for -/
  stall : Nat := 0

/-- The regions of the address space. -/
inductive Region where
  | ram (cell : Fin 0x800)
  | register (name : RegisterName)
  /-- the register that starts a transfer to the sprite list -/
  | transfer
  | pad (i : Fin 2)
  | cartridge
  /-- nothing answers -/
  | unmapped

def Region.ofAddress (address : UInt16) : Region :=
  if address < 0x2000 then ram ⟨address.toNat % 0x800, Nat.mod_lt _ (by decide)⟩
  else if address < 0x4000 then register (.ofAddress address)
  else if 0x4020 ≤ address then cartridge
  else if address = 0x4014 then transfer
  else if address = 0x4016 then pad 0
  else if address = 0x4017 then pad 1
  else unmapped

def isRegister (address : UInt16) : Bool := 0x2000 ≤ address && address < 0x4000

theorem isRegister_eq_page (address : UInt16) :
    isRegister address = (0x20 ≤ highByte address && highByte address < 0x40) := by
  have low : 0x20 ≤ highByte address ↔ 0x2000 ≤ address := by
    rw [UInt8.le_iff_toNat_le, UInt16.le_iff_toNat_le, toNat_highByte]
    show 32 ≤ _ ↔ 8192 ≤ _
    omega
  have high : highByte address < 0x40 ↔ address < 0x4000 := by
    rw [UInt8.lt_iff_toNat_lt, UInt16.lt_iff_toNat_lt, toNat_highByte]
    show _ < 64 ↔ _ < 16384
    omega
  simp [isRegister, low, high]

theorem isRegister_of_page {address : UInt16} {page : UInt8} (h : highByte address = page)
    (hp : page < 0x20 ∨ 0x40 ≤ page) : isRegister address = false := by
  rw [isRegister_eq_page, h]
  grind

theorem isRegister_of_ofAddress {address : UInt16} {name : RegisterName}
    (h : Region.ofAddress address = .register name) : isRegister address = true := by
  unfold Region.ofAddress at h
  grind [isRegister]

theorem Region.ofAddress_eq_pad {address : UInt16} {i : Fin 2}
    (h : Region.ofAddress address = .pad i) : address = 0x4016 ∨ address = 0x4017 := by
  unfold Region.ofAddress at h
  grind

namespace Bus

variable {κ : Type} [Cartridge κ]

def plug (cart : κ) : Bus κ := { cartridge := cart, video := .initial (Cartridge.layout cart) }

/-- The reset line.  Memory, pads and the Game Genie are not connected to it. -/
def reset (b : Bus κ) : Bus κ :=
  let cart := Cartridge.reset b.cartridge
  { b with
    cartridge := cart
    video := b.video.reset.setLayout (Cartridge.layout cart)
    stall := 0 }

/-! ### Reading -/

/-- The cartridge's byte as the Game Genie lets it through. -/
def readCartridge (b : Bus κ) (address : UInt16) : UInt8 :=
  let byte := Cartridge.read b.cartridge address
  match b.gameGenie with
  | some g => g.patch address byte
  | none => byte

/-- What an address reads as, for those that look without touching; the pads do not show. -/
def peek (b : Bus κ) (address : UInt16) : UInt8 :=
  match Region.ofAddress address with
  | .ram cell => b.ram[cell]
  | .register name => b.video.peekRegister b.cartridge name
  | .cartridge => b.readCartridge address
  | _ => 0

def padBit (b : Bus κ) (i : Fin 2) : UInt8 :=
  match b.pads[i] with
  | some pad => atBit pad.line 0
  | none => 0

def read (b : Bus κ) (address : UInt16) : UInt8 × Bus κ :=
  match Region.ofAddress address with
  | .ram cell => (b.ram[cell], b)
  | .register name =>
    let (byte, video) := b.video.readRegister b.cartridge name
    (byte, { b with video := video })
  | .pad i =>
    let byte := b.padBit i
    (byte, { b with pads := b.pads.set i (b.pads[i].map fun pad => pad.poll.2) })
  | .cartridge => (b.readCartridge address, b)
  | _ => (0, b)

/-! ### Writing -/

/-- The cycles for which a transfer holds the bus. -/
def transferCycles : Nat := 512

/-- Copies a page into the sprite list, looking at its bytes without touching them. -/
def transfer (b : Bus κ) (page : UInt8) : Bus κ :=
  { b with
    video := b.video.transfer fun i => b.peek (wordOf page i)
    stall := b.stall + transferCycles }

/-- Writes the cartridge, and takes over the layout it asks for if that is another one. -/
def writeCartridge (b : Bus κ) (address : UInt16) (byte : UInt8) : Bus κ :=
  let cart := Cartridge.write b.cartridge address byte
  let layout := Cartridge.layout cart
  { b with
    cartridge := cart
    video := if layout = b.video.memory.layout then b.video else b.video.setLayout layout }

theorem writeCartridge_eq (b : Bus κ) (address : UInt16) (byte : UInt8) :
    b.writeCartridge address byte =
      { b with
        cartridge := Cartridge.write b.cartridge address byte
        video := b.video.setLayout (Cartridge.layout (Cartridge.write b.cartridge address byte)) } := by
  unfold writeCartridge
  dsimp only
  split
  · rename_i hsame
    rw [hsame, Video.setLayout, Picture.Memory.setLayout_self]
  · rfl

def write (b : Bus κ) (address : UInt16) (byte : UInt8) : Bus κ :=
  match Region.ofAddress address with
  | .ram cell => { b with ram := b.ram.set cell byte }
  | .register name =>
    { b with
      cartridge := b.video.writeThrough b.cartridge name byte
      video := b.video.writeRegister name byte }
  | .transfer => b.transfer byte
  | .pad 0 => { b with pads := b.pads.map (·.map (·.setStrobe (bit byte 0))) }
  | .cartridge => b.writeCartridge address byte
  | _ => b

/-- What the cartridge has to say about a write. -/
def remark (b : Bus κ) (address : UInt16) (byte : UInt8) : Option Remark :=
  if 0x4020 ≤ address then Cartridge.remark b.cartridge address byte else none

/-! ### Other connections -/

def takeStall (b : Bus κ) : Nat × Bus κ := (b.stall, { b with stall := 0 })

/-- Plugs a pad into a socket; there are only two. -/
def connect (b : Bus κ) (socket : Nat) (pad : Joypad) : Bus κ :=
  if h : socket < 2 then { b with pads := b.pads.set socket (some pad) } else b

def pad? (b : Bus κ) (socket : Nat) : Option Joypad := (b.pads[socket]?).join

def disconnect (b : Bus κ) (socket : Nat) : Bus κ :=
  if h : socket < 2 then { b with pads := b.pads.set socket none } else b

end Bus

end Famicom
