import Famicom.Bus

/-!
# What an access leaves alone

Away from the registers of the picture unit a read changes the pads at most, and those only at their
own two addresses. On page zero it changes nothing.  Only a write that starts a transfer holds the
bus.
-/

namespace Famicom

theorem Region.ofAddress_eq_transfer {address : UInt16}
    (h : Region.ofAddress address = .transfer) : address = 0x4014 := by
  unfold Region.ofAddress at h
  grind

namespace Bus

open Picture

variable {κ : Type} {b : Bus κ} {address : UInt16} {byte : UInt8}

def setRegs (b : Bus κ) (r : Registers) : Bus κ := { b with video := { b.video with regs := r } }

def NoPad (address : UInt16) : Prop := address ≠ 0x4016 ∧ address ≠ 0x4017

instance (address : UInt16) : Decidable (NoPad address) := inferInstanceAs (Decidable (_ ∧ _))

theorem noPad_of_page_zero (h : highByte address = 0) : NoPad address := by
  constructor <;> rintro rfl <;> exact absurd h (by decide)

variable [Cartridge κ]

/-! ### Reads -/

/-- A read of a register is the picture unit's business alone. -/
theorem read_of_register {name : RegisterName} (h : Region.ofAddress address = .register name)
    (b : Bus κ) :
    b.read address = (b.video.peekRegister b.cartridge name,
      { b with video := b.video.afterRead b.cartridge name }) := by
  rw [read, h]
  simp only [Video.readRegister_eq]

theorem read_of_not_isRegister (h : isRegister address = false) :
    (b.read address).2 = { b with pads := (b.read address).2.pads } := by
  unfold read
  split
  · rfl
  · rename_i name hname
    rw [isRegister_of_ofAddress hname] at h
    cases h
  · rfl
  · rfl
  · rfl

theorem read_pads (h : NoPad address) : (b.read address).2.pads = b.pads := by
  unfold read
  split
  · rfl
  · rfl
  · rename_i i hi
    rcases Region.ofAddress_eq_pad hi with hi | hi
    · exact absurd hi h.1
    · exact absurd hi h.2
  · rfl
  · rfl

theorem read_page_zero (h : highByte address = 0) :
    b.read address = (b.ram[address.toNat % 0x800], b) := by
  have hlt : address < 0x2000 := by
    have h' := congrArg UInt8.toNat h
    rw [toNat_highByte] at h'
    rw [UInt16.lt_iff_toNat_lt]
    simp at h' ⊢
    omega
  simp [read, Region.ofAddress, hlt]

theorem read_memory (h : address < 0x2000) (b : Bus κ) : (b.read address).2 = b := by
  rw [read, Region.ofAddress, if_pos h]

theorem read_stall : (b.read address).2.stall = b.stall := by
  unfold read
  split <;> rfl

/-! ### Writes -/

/-- A write to a register reaches the picture unit and, through it, the cartridge. -/
theorem write_of_register {name : RegisterName} (h : Region.ofAddress address = .register name)
    (b : Bus κ) (byte : UInt8) :
    b.write address byte =
      { b with
        cartridge := b.video.writeThrough b.cartridge name byte
        video := b.video.writeRegister name byte } := by
  rw [write, h]

theorem read_write_memory (h : address < 0x2000) (b : Bus κ) (byte : UInt8) :
    (b.write address byte).read address = (byte, b.write address byte) := by
  rw [read, write, Region.ofAddress, if_pos h]
  exact Prod.ext (Vector.getElem_set_self _) rfl

theorem write_stall (h : address ≠ 0x4014) : (b.write address byte).stall = b.stall := by
  unfold write
  split
  · rfl
  · rfl
  · rename_i ht
    exact absurd (Region.ofAddress_eq_transfer ht) h
  · rfl
  · rfl
  · rfl

theorem write_stall_le (b : Bus κ) (address : UInt16) (byte : UInt8) :
    (b.write address byte).stall ≤ b.stall + transferCycles := by
  unfold write
  split <;> simp [transfer, writeCartridge]

/-! ### What lasts -/

/-- A property of the bus that no access takes away, and nothing else that steps and ticks do to
it. -/
structure Lasting (P : Bus κ → Prop) : Prop where
  read {b : Bus κ} (address : UInt16) (h : P b) : P (b.read address).2
  write {b : Bus κ} (address : UInt16) (byte : UInt8) (h : P b) : P (b.write address byte)
  setRegs {b : Bus κ} (r : Registers) (h : P b) : P (b.setRegs r)
  takeStall {b : Bus κ} (h : P b) : P b.takeStall.2

end Bus

end Famicom
