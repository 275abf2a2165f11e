import Famicom.Proofs.Machine.Cycles
import Famicom.Proofs.Processor.Arithmetic

/-!
# Where operands are

The bytes after an opcode and the registers say where the operand is (`Machine.operandAddress`), in
numbers that wrap around within a byte or a word, and which accesses find it (`Machine.finding`).
Finding it changes nothing but what is known of the operand and the program counter, which goes past
the bytes that were fetched (`Program.resolve_exec`).
-/

namespace Famicom

open Processor

variable {κ : Type} [Cartridge κ]

def Bus.after (b : Bus κ) (accesses : List Access) : Bus κ :=
  accesses.foldl (fun b a => match a with
    | .read _ address => (b.read address).2
    | .write address byte => b.write address byte) b

namespace Machine

/-! ### The bytes of an instruction and its operand -/

section Operand

variable (b : Bus κ) (pc : UInt16) (r : Registers)

/-- The second address of a pointer, which does not leave the page of the first. -/
def pointerHigh (pointer : UInt16) : UInt16 :=
  if lowByte pointer = 0xFF then wordOf (highByte pointer) 0 else pointer + 1

/-- The address that an instruction names by a mode.  Its opcode has been read from `pc`, and `b` is
the bus after that. -/
def operandAddress : Mode → Option Nat
  | .implied | .accumulator | .immediate => none
  | .zeroPage => some (b.read (pc + 1)).1.toNat
  | .zeroPageX => some (((b.read (pc + 1)).1.toNat + r.x.toNat) % 0x100)
  | .zeroPageY => some (((b.read (pc + 1)).1.toNat + r.y.toNat) % 0x100)
  | .relative => some ((pc.toNat + 2 + (b.read (pc + 1)).1.toInt8.toInt) % 0x10000).toNat
  | .absolute => some (b.wordAt (pc + 1) (pc + 2)).toNat
  | .absoluteX => some (((b.wordAt (pc + 1) (pc + 2)).toNat + r.x.toNat) % 0x10000)
  | .absoluteY => some (((b.wordAt (pc + 1) (pc + 2)).toNat + r.y.toNat) % 0x10000)
  | .indirect =>
    let pointer := b.wordAt (pc + 1) (pc + 2)
    let b := b.after [.read .code (pc + 1), .read .code (pc + 2)]
    some (b.wordAt pointer (pointerHigh pointer)).toNat
  | .indexedIndirect =>
    let (low, b) := b.read (pc + 1)
    some (b.wordAt (low + r.x).toUInt16 (low + r.x + 1).toUInt16).toNat
  | .indirectIndexed =>
    let (low, b) := b.read (pc + 1)
    some (((b.wordAt low.toUInt16 (low + 1).toUInt16).toNat + r.y.toNat) % 0x10000)

/-- The operand of the modes without an address. -/
def operandAtHand : Mode → UInt8
  | .immediate => (b.read (pc + 1)).1
  | .accumulator => r.a
  | _ => 0

/-- The accesses that find the operand. -/
def finding : Mode → List Access
  | .implied | .accumulator => []
  | .absolute | .absoluteX | .absoluteY => [.read .code (pc + 1), .read .code (pc + 2)]
  | .indirect =>
    let pointer := b.wordAt (pc + 1) (pc + 2)
    [.read .code (pc + 1), .read .code (pc + 2), .read .data pointer,
      .read .data (pointerHigh pointer)]
  | .indexedIndirect =>
    let pointer := (b.read (pc + 1)).1 + r.x
    [.read .code (pc + 1), .read .data pointer.toUInt16, .read .data (pointer + 1).toUInt16]
  | .indirectIndexed =>
    let pointer := (b.read (pc + 1)).1
    [.read .code (pc + 1), .read .data pointer.toUInt16, .read .data (pointer + 1).toUInt16]
  | _ => [.read .code (pc + 1)]

/-- What is known of an operand that was found by a mode. -/
structure Found (mode : Mode) (o : Operand) : Prop where
  mode_eq : o.mode = mode
  address : ∀ a ∈ operandAddress b pc r mode, o.address.toNat = a
  data : mode.addressesMemory = false → o.data = operandAtHand b pc r mode

theorem isSome_operandAddress (b : Bus κ) (pc : UInt16) (r : Registers) (mode : Mode) :
    (operandAddress b pc r mode).isSome = mode.addressesMemory := by
  cases mode <;> rfl

end Operand

end Machine

namespace Program

theorem toNat_add_index (base : UInt16) (index : UInt8) :
    (base + index.toUInt16).toNat = (base.toNat + index.toNat) % 0x10000 := by
  rw [UInt16.toNat_add, UInt8.toNat_toUInt16]

theorem toNat_add_distance (pc : UInt16) (distance : UInt8) :
    (pc + 1 + 1 + signExtend distance).toNat =
      ((pc.toNat + 2 + distance.toInt8.toInt) % 0x10000).toNat := by
  have hdistance := toNat_signExtend distance
  have hpc := pc.toNat_lt
  simp only [UInt16.toNat_add, UInt16.toNat_one]
  omega

theorem pointerHigh_eq (pointer : UInt16) :
    wordOf (highByte pointer) (lowByte pointer + 1) = Machine.pointerHigh pointer := by
  have hlow := toNat_lowByte pointer
  unfold Machine.pointerHigh
  split
  · rename_i h
    rw [h]
    rfl
  · rename_i h
    have hne : (lowByte pointer).toNat ≠ 255 := fun h' => h (UInt8.toNat_inj.mp h')
    have hlt := pointer.toNat_lt
    apply UInt16.toNat_inj.mp
    rw [toNat_wordOf, toNat_highByte, UInt8.toNat_add, hlow, UInt16.toNat_add]
    rw [hlow] at hne
    show 256 * (pointer.toNat / 256) + (pointer.toNat % 256 + 1) % 256 =
      (pointer.toNat + 1) % 65536
    omega

/-- **Finding an operand.**  What changes is what is known of the operand, and the program counter,
which goes past the bytes that were fetched. -/
theorem resolve_exec (mode : Mode) {c : Core} {pc : UInt16} (hpc : c.pc = pc + 1) (b : Bus κ) :
    ∃ o, (resolve mode).exec c b =
        (some (), { c with pc := pc + 1 + .ofNat mode.operandBytes, operand := o },
          b.after (Machine.finding b pc c.regs mode)) ∧
      (resolve mode).trace c b = Machine.finding b pc c.regs mode ∧
      Machine.Found b pc c.regs mode o := by
  obtain ⟨r, pc', o⟩ := c
  obtain rfl : pc' = pc + 1 := hpc
  have htwo : pc + 2 = pc + 1 + 1 := by grind
  have hsame : pc + 1 + .ofNat 0 = pc + 1 := UInt16.add_zero _
  have hnext : pc + 1 + .ofNat 2 = pc + 1 + 1 + 1 := by grind
  have none {o : Operand} (h : Machine.operandAddress b pc r mode = none) :
      ∀ a ∈ Machine.operandAddress b pc r mode, o.address.toNat = a := by simp [h]
  have some {o : Operand} {n : Nat} (h : Machine.operandAddress b pc r mode = some n)
      (ho : o.address.toNat = n) :
      ∀ a ∈ Machine.operandAddress b pc r mode, o.address.toNat = a := by simp [h, ho]
  cases mode with
  | implied | accumulator =>
    rw [show Mode.operandBytes _ = 0 from rfl, hsame]
    exact ⟨_, rfl, rfl, rfl, none rfl, fun _ => rfl⟩
  | immediate => exact ⟨_, rfl, rfl, rfl, none rfl, fun _ => rfl⟩
  | zeroPage => exact ⟨_, rfl, rfl, rfl, some rfl (UInt8.toNat_toUInt16 _), nofun⟩
  | zeroPageX | zeroPageY =>
    refine ⟨_, rfl, rfl, rfl, some rfl ?_, nofun⟩
    exact (UInt8.toNat_toUInt16 _).trans (UInt8.toNat_add _ _)
  | relative => exact ⟨_, rfl, rfl, rfl, some rfl (toNat_add_distance _ _), nofun⟩
  | absolute =>
    rw [show Mode.absolute.operandBytes = 2 from rfl, hnext, Machine.finding, htwo]
    refine ⟨_, rfl, rfl, rfl, some rfl ?_, nofun⟩
    rw [htwo]
    rfl
  | absoluteX | absoluteY =>
    rw [show Mode.operandBytes _ = 2 from rfl, hnext, Machine.finding, htwo]
    refine ⟨_, rfl, rfl, rfl, some rfl ?_, nofun⟩
    rw [htwo]
    exact toNat_add_index _ _
  | indirect =>
    rw [show Mode.indirect.operandBytes = 2 from rfl, hnext, Machine.finding, htwo]
    dsimp only
    rw [← pointerHigh_eq]
    refine ⟨_, rfl, rfl, rfl, some rfl ?_, nofun⟩
    rw [htwo, ← pointerHigh_eq]
    rfl
  | indexedIndirect =>
    rw [Machine.finding]
    dsimp only
    rw [← readWordInPage_next]
    refine ⟨_, rfl, rfl, rfl, some rfl ?_, nofun⟩
    rw [← readWordInPage_next]
    rfl
  | indirectIndexed =>
    rw [Machine.finding]
    dsimp only
    rw [← readWordInPage_next]
    refine ⟨_, rfl, rfl, rfl, some rfl ?_, nofun⟩
    rw [← readWordInPage_next]
    exact toNat_add_index _ _

end Program

end Famicom
