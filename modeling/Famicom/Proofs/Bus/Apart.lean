import Famicom.Cartridge.Board
import Famicom.Proofs.Bus.Frame
import Famicom.Proofs.Picture.Ticks

/-!
# Accesses apart from the picture

An access that touches neither a register of the picture unit nor the transfer register has nothing
to do with what the unit draws: it does the same whatever the unit's registers hold (`read_setRegs`,
`write_setRegs`), and what is drawn afterwards is what would have been drawn before (`ShowsSame`).
The cartridge is the one thing that both sides look at, so this is true of boards whose pattern
tables and layout the processor cannot reach (`Cartridge.Steady`).
-/

namespace Famicom

open Picture

/-! ### Boards -/

/-- A cartridge that a write of the processor does not make look different, and whose layout a write
to the pattern tables does not change either. -/
class Cartridge.Steady (κ : Type) [Cartridge κ] : Prop where
  layout_write (cart : κ) (address : UInt16) (byte : UInt8) :
    Cartridge.layout (Cartridge.write cart address byte) = Cartridge.layout cart
  layout_writePattern (cart : κ) (address : UInt16) (byte : UInt8) :
    Cartridge.layout (Cartridge.writePattern cart address byte) = Cartridge.layout cart
  readPattern_write (cart : κ) (address : UInt16) (byte : UInt8) :
    Scan.SamePatterns (Cartridge.write cart address byte) cart

instance : Cartridge.Steady Nrom where
  layout_write cart address byte := by
    show (Nrom.write cart address byte).layout = cart.layout
    unfold Nrom.write
    split <;> rfl
  layout_writePattern _ _ _ := rfl
  readPattern_write cart address byte address' := by
    have hpattern : (Nrom.write cart address byte).pattern = cart.pattern := by
      unfold Nrom.write
      split <;> rfl
    show (if address' < 0x2000 then (Nrom.write cart address byte).pattern.read address' else 0) = _
    rw [hpattern]
    rfl

instance : Cartridge.Steady Uxrom where
  layout_write cart address byte := by
    show (Uxrom.write cart address byte).layout = cart.layout
    unfold Uxrom.write
    split <;> rfl
  layout_writePattern _ _ _ := rfl
  readPattern_write cart address byte address' := by
    have hpattern : (Uxrom.write cart address byte).pattern = cart.pattern := by
      unfold Uxrom.write
      split <;> rfl
    show (Uxrom.write cart address byte).pattern.read address' = _
    rw [hpattern]
    rfl

instance : Cartridge.Steady Board where
  layout_write
    | .nrom c => Cartridge.Steady.layout_write c
    | .uxrom c => Cartridge.Steady.layout_write c
  layout_writePattern
    | .nrom c => Cartridge.Steady.layout_writePattern c
    | .uxrom c => Cartridge.Steady.layout_writePattern c
  readPattern_write
    | .nrom c => Cartridge.Steady.readPattern_write c
    | .uxrom c => Cartridge.Steady.readPattern_write c

/-- A cartridge whose layout changes only where the bus looks at it: when the processor writes to the
cartridge, and at a reset. -/
class Cartridge.Overt (κ : Type) [Cartridge κ] : Prop where
  layout_writePattern (cart : κ) (address : UInt16) (byte : UInt8) :
    Cartridge.layout (Cartridge.writePattern cart address byte) = Cartridge.layout cart

instance {κ : Type} [Cartridge κ] [Cartridge.Steady κ] : Cartridge.Overt κ where
  layout_writePattern := Cartridge.Steady.layout_writePattern

theorem Picture.Memory.write_layout (m : Memory) (address : UInt16) (byte : UInt8) :
    (m.write address byte).layout = m.layout := by
  unfold Memory.write
  simp only
  split
  · rfl
  · split <;> rfl

theorem Picture.Memory.layout_writeCartridge {κ : Type} [Cartridge κ] [Cartridge.Overt κ]
    (cart : κ) (address : UInt16) (byte : UInt8) :
    Cartridge.layout (Memory.writeCartridge cart address byte) = Cartridge.layout cart := by
  unfold Memory.writeCartridge
  simp only
  split
  · exact Cartridge.Overt.layout_writePattern _ _ _
  · rfl

/-! ### Accesses -/

namespace Bus

variable {κ : Type} {b b' b'' : Bus κ} {address : UInt16} {byte : UInt8}

variable [Cartridge κ]

/-- The picture unit goes by the cartridge's layout of the nametables. -/
def LaidOut (b : Bus κ) : Prop := b.video.memory.layout = Cartridge.layout b.cartridge

/-- What is drawn from one bus is what is drawn from the other. -/
structure ShowsSame (b b' : Bus κ) : Prop where
  video : b'.video = b.video
  patterns : Scan.SamePatterns b'.cartridge b.cartridge

theorem ShowsSame.refl (b : Bus κ) : ShowsSame b b := ⟨rfl, fun _ => rfl⟩

theorem ShowsSame.trans (h : ShowsSame b b') (h' : ShowsSame b' b'') : ShowsSame b b'' :=
  ⟨h'.video.trans h.video, fun address => (h'.patterns address).trans (h.patterns address)⟩

theorem read_setRegs (h : isRegister address = false) (b : Bus κ) (r : Registers) :
    (b.setRegs r).read address = ((b.read address).1, (b.read address).2.setRegs r) := by
  unfold read
  split
  · rfl
  · rename_i name hname
    rw [isRegister_of_ofAddress hname] at h
    cases h
  · rfl
  · rfl
  · rfl

theorem read_showsSame (h : isRegister address = false) (b : Bus κ) :
    ShowsSame b (b.read address).2 := by
  rw [read_of_not_isRegister h]
  exact ⟨rfl, fun _ => rfl⟩

theorem write_setRegs (h : isRegister address = false) (h' : address ≠ 0x4014) (b : Bus κ)
    (r : Registers) : (b.setRegs r).write address byte = (b.write address byte).setRegs r := by
  unfold write
  split
  · rfl
  · rename_i name hname
    rw [isRegister_of_ofAddress hname] at h
    cases h
  · rename_i ht
    exact absurd (Region.ofAddress_eq_transfer ht) h'
  · rfl
  · rw [writeCartridge_eq, writeCartridge_eq]
    rfl
  · rfl

theorem read_laidOut (h : b.LaidOut) : (b.read address).2.LaidOut := by
  unfold read
  split
  · exact h
  · rename_i name _
    cases name <;> exact h
  · exact h
  · exact h
  · exact h

theorem write_showsSame [Cartridge.Steady κ] (h : isRegister address = false) (h' : address ≠ 0x4014)
    (hl : b.LaidOut) : ShowsSame b (b.write address byte) := by
  unfold write
  split
  · exact ⟨rfl, fun _ => rfl⟩
  · rename_i name hname
    rw [isRegister_of_ofAddress hname] at h
    cases h
  · rename_i ht
    exact absurd (Region.ofAddress_eq_transfer ht) h'
  · exact ⟨rfl, fun _ => rfl⟩
  · refine ⟨?_, Cartridge.Steady.readPattern_write _ _ _⟩
    rw [writeCartridge_eq, Cartridge.Steady.layout_write, ← hl, Video.setLayout,
      Memory.setLayout_self]
  · exact ⟨rfl, fun _ => rfl⟩

theorem transfer_laidOut (h : b.LaidOut) (page : UInt8) : (b.transfer page).LaidOut := by
  rw [LaidOut, transfer, Video.transfer, Memory.fillSprites_eq]
  exact h

theorem write_laidOut [Cartridge.Overt κ] (h : b.LaidOut) : (b.write address byte).LaidOut := by
  unfold write
  split
  · exact h
  · rename_i name _
    cases name with
    | data =>
      show (b.video.memory.write b.video.regs.v.word byte).layout =
        Cartridge.layout (Memory.writeCartridge b.cartridge b.video.regs.v.word byte)
      rw [Memory.write_layout, Memory.layout_writeCartridge]
      exact h
    | _ => exact h
  · exact transfer_laidOut h byte
  · exact h
  · rw [writeCartridge_eq]
    rfl
  · exact h

theorem lasting_laidOut [Cartridge.Overt κ] : Lasting (LaidOut (κ := κ)) where
  read _ h := read_laidOut h
  write _ _ h := write_laidOut h
  setRegs _ h := h
  takeStall h := h

end Bus

end Famicom
