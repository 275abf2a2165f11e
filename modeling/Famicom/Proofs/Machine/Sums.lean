import Famicom.Proofs.Machine.Instructions

/-!
# Sums, differences and comparisons

An instruction that reads its operand makes of the registers what its action makes of them and of
one byte (`operandByte`), and what it writes goes where that byte came from (`CarriedOut.result`).
For the instructions that add, subtract or compare this is integer arithmetic (`step_arithmetic`).
-/

namespace Famicom

open Processor

variable {κ : Type} [Cartridge κ]

/-- The families that read their operand, and change it in memory if at all. -/
def Processor.Action.readsOperand (mode : Mode) : Action → Bool
  | .load .. => true
  | .modify .. => mode.addressesMemory
  | _ => false

/-- What reads its operand works out the registers from that. -/
theorem Program.perform_result {action : Action} {c : Core}
    (h : action.readsOperand c.operand.mode = true) (b : Bus κ) :
    ((perform action).exec c b).2.1 =
        { c with regs := action.result c.regs (operandOf c b).1 } ∧
      ∀ v ∈ action.rewrites c.regs (operandOf c b).1,
        ((perform action).trace c b).getLast? = some (.write c.operand.address v) := by
  cases action with
  | load pays f =>
    rw [load_exec]
    exact ⟨rfl, nofun⟩
  | modify byte settle =>
    rw [modify_exec h, modify_trace h]
    refine ⟨rfl, ?_⟩
    rintro _ ⟨⟩
    rfl
  | _ => cases h

namespace Machine

variable {m m' : Machine κ}

/-- The byte that the instruction in hand works on. -/
def operandByte (m : Machine κ) : UInt8 :=
  match m.operandAt with
  | some a => (((m.bus.read m.cpu.pc).2.after m.lookups).read (.ofNat a)).1
  | none => operandAtHand (m.bus.read m.cpu.pc).2 m.cpu.pc m.cpu.regs m.encoding.mode

theorem address_located {a : Nat} (ha : a ∈ m.operandAt) :
    m.located.1.operand.address = .ofNat a := by
  rw [← m.located_spec.2.2.address a ha, UInt16.ofNat_toNat]

theorem operandOf_located (m : Machine κ) :
    (Program.operandOf m.located.1 m.located.2).1 = m.operandByte := by
  obtain ⟨-, hbus, hmode, -, hdata⟩ := m.located_spec
  have hsome : m.operandAt.isSome = m.encoding.mode.addressesMemory := isSome_operandAddress ..
  rw [Program.operandOf, hmode, ← hsome, operandByte]
  cases hat : m.operandAt with
  | none =>
    rw [hat] at hsome
    exact hdata hsome.symm
  | some a =>
    rw [← hbus, address_located hat]
    rfl

/-- What an instruction that reads its operand has made of the registers, and where it has put
what it made of the operand. -/
theorem CarriedOut.result (h : m.CarriedOut m')
    (hreads : m.action.readsOperand m.encoding.mode = true) :
    m'.cpu.regs = m.action.result m.cpu.regs m.operandByte ∧
      ∀ v ∈ m.action.rewrites m.cpu.regs m.operandByte,
        ∃ a ∈ m.operandAt, m.accesses.getLast? = some (.write (.ofNat a) v) := by
  obtain ⟨⟨extra, b, hperform, -⟩, haccesses⟩ := h
  obtain ⟨-, -, hmode, -⟩ := m.located_spec
  obtain ⟨hresult, hlast⟩ := Program.perform_result (c := m.located.1)
    (by rw [hmode]; exact hreads) m.located.2
  rw [hperform] at hresult
  rw [operandOf_located, located_regs] at hresult hlast
  refine ⟨congrArg Core.regs hresult, fun v hv => ?_⟩
  -- only a change of memory puts anything in the place of its operand
  have hmemory : m.encoding.mode.addressesMemory = true := by
    cases haction : m.action <;> rw [haction] at hreads hv <;> first | exact hreads | cases hv
  obtain ⟨a, hat⟩ := addressesMemory_iff.mp hmemory
  refine ⟨a, hat, ?_⟩
  rw [← address_located hat, haccesses, ← List.cons_append, List.getLast?_append, hlast v hv]
  rfl

theorem readsOperand_of_arithmetic (opcode : UInt8) :
    let e := Encoding.decode opcode
    e.mnemonic ∈ Mnemonic.arithmetic → (e.mnemonic.action e.mode).readsOperand e.mode = true := by
  revert opcode
  decide +kernel

/-- **Instructions that add, subtract or compare do so as integers do,** whatever their mode, and
whether or not the decimal flag is set. -/
theorem step_arithmetic (hh : m.cpu.halted = false) (hdue : m.nmiDue = false)
    (hwait : m.step.1 ≠ .waits)
    (hallowed : Program.allowed m.cpu.undocumented (Program.opcodeAt m) = true)
    (hm : m.encoding.mnemonic ∈ Mnemonic.arithmetic) :
    ∃ n m', m.step = (.ran n, m') ∧
      m.encoding.mnemonic.Computes m.cpu.regs m.operandByte m'.cpu.regs ∧
      ∀ v ∈ m.encoding.mnemonic.stored m.cpu.regs m.operandByte,
        ∃ a ∈ m.operandAt, m.accesses.getLast? = some (.write (.ofNat a) v) := by
  have hreads : m.action.readsOperand m.encoding.mode = true :=
    readsOperand_of_arithmetic (Program.opcodeAt m) hm
  have hjam : m.action ≠ .jam := fun hjam => by rw [hjam] at hreads; cases hreads
  obtain ⟨n, m', hs⟩ := exists_ran hh hdue hwait hallowed hjam
  obtain ⟨hregs, hlast⟩ := (carriedOut_of_ran hdue hs).result hreads
  obtain ⟨hcomputes, hrewrites⟩ := Mnemonic.computes_result hm m.encoding.mode m.cpu.regs
    m.operandByte
  refine ⟨n, m', hs, ?_, fun v hv => hlast v ?_⟩
  · rw [hregs]
    exact hcomputes
  · rw [action, hrewrites]
    exact hv

/-- A machine about to rotate a byte of memory and to add it, in the decimal mode. -/
def rotating : Machine Board where
  cpu := {
    regs := { a := 0x50, p := { Status.initial with decimal := true } }
    pc := 0x10 }
  bus := { Bus.plug Board.blank with
    ram := memoryWith [(0x10, 0x67), (0x11, 0x20), (0x20, 0x5F)] }

/-- The carry that is added is the bit that was shifted out, and the sum does not fit as a signed
number. -/
theorem rotating_computes :
    rotating.step.2.cpu.regs.a = 0x80 ∧ rotating.step.2.cpu.regs.p.overflow = true ∧
      rotating.step.2.cpu.regs.p.carry = false ∧
      rotating.accesses.getLast? = some (.write 0x20 0x2F) := by
  have hrra : rotating.encoding = ⟨.rra, .zeroPage, 5, false⟩ := by decide +kernel
  have hat : rotating.operandAt = some 0x20 := by decide +kernel
  have hbyte : rotating.operandByte = 0x5F := by decide +kernel
  obtain ⟨n, m', hs, hcomputes, hstored⟩ := step_arithmetic (m := rotating) rfl
    (by decide +kernel) (step_ne_waits rfl) (by decide +kernel) (by rw [hrra]; decide)
  rw [hrra, hbyte] at hcomputes hstored
  obtain ⟨hresult, hcarry, hoverflow, -, -⟩ := hcomputes
  obtain ⟨a, ha, hlast⟩ := hstored _ rfl
  obtain rfl : 0x20 = a := Option.some.inj (hat.symm.trans ha)
  rw [hs]
  refine ⟨UInt8.toNat_inj.mp (Int.ofNat_inj.mp hresult), hoverflow.mpr (by decide), ?_, hlast⟩
  exact Bool.eq_false_iff.mpr fun h => absurd (hcarry.mp h) (by decide)

end Machine

end Famicom
