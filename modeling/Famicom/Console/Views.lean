import Famicom.Console.Basic

/-!
# Looking into a console

Views that change nothing: the cells of the background as tiles and palettes, the sprites, the
processor's memory.
-/

namespace Famicom

namespace Picture.Memory

/-- The byte at an offset of a nametable; tables and offsets repeat. -/
def tableByteAt (m : Memory) (table offset : Nat) : UInt8 :=
  m.tableByte ⟨table % 4, Nat.mod_lt _ (by decide)⟩ ⟨offset % 0x400, Nat.mod_lt _ (by decide)⟩

/-- The sprite with a number; the 64 sprites repeat. -/
def spriteAt (m : Memory) (i : Nat) : SpriteEntry := m.sprite ⟨i % 64, Nat.mod_lt _ (by decide)⟩

/-- The tile and the palette of a cell of a nametable.  The palettes stand behind the tiles, one
byte for four by four cells and two bits for two by two. -/
def tileAt (m : Memory) (table column row : Nat) : UInt8 × UInt8 :=
  let tile := m.tableByteAt table (row * 32 + column)
  let palettes := m.tableByteAt table (0x3C0 + row / 4 * 8 + column / 4)
  let shift := 4 * (row / 2 % 2) + 2 * (column / 2 % 2)
  (tile, (palettes >>> .ofNat shift) &&& 3)

end Picture.Memory

namespace Console

variable {κ : Type} [Cartridge κ]

def tileAt (c : Console κ) (table column row : Nat) : UInt8 × UInt8 :=
  c.machine.bus.video.memory.tileAt table column row

def spriteAt (c : Console κ) (i : Nat) : Picture.SpriteEntry :=
  c.machine.bus.video.memory.spriteAt i

/-- What an address of the processor reads as. -/
def peek (c : Console κ) (address : UInt16) : UInt8 := c.machine.bus.peek address

end Console

end Famicom
