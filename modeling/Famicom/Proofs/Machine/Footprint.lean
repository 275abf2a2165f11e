import Famicom.Proofs.Machine.Registers
import Famicom.Proofs.Machine.Returns

/-!
# What a step can reach

The mnemonic of an instruction says what it writes: its operand, bytes on the stack or nothing at
all (`Mnemonic.writes`).  These are all the writes of a step that ran, an interrupt of the picture
unit putting three bytes on the stack.  So every cell of memory that none of them meets keeps its
byte, and so does every register that is not among those the mnemonic may change
(`step_confined`).
-/

namespace Famicom

open Processor

variable {κ : Type} [Cartridge κ]

/-! ### Writes -/

def Access.target : Access → Option Nat
  | .read _ _ => none
  | .write address _ => some address.toNat

/-- The addresses that some accesses write, one after another. -/
def written (accesses : List Access) : List Nat := accesses.filterMap Access.target

@[simp] theorem written_nil : written [] = [] := rfl

@[simp] theorem written_read (purpose : Purpose) (address : UInt16) (accesses : List Access) :
    written (.read purpose address :: accesses) = written accesses := rfl

@[simp] theorem written_write (address : UInt16) (byte : UInt8) (accesses : List Access) :
    written (.write address byte :: accesses) = address.toNat :: written accesses := rfl

@[simp] theorem written_append (l l' : List Access) : written (l ++ l') = written l ++ written l' :=
  List.filterMap_append

/-- Where the next bytes are put on the stack. -/
def pushes (sp : UInt8) (n : Nat) : List Nat :=
  (List.range n).map fun i => 0x100 + (sp - .ofNat i).toNat

theorem toNat_stackAddress (c : Core) : c.stackAddress.toNat = 0x100 + c.regs.sp.toNat :=
  toNat_wordOf 1 c.regs.sp

/-! ### Memory -/

namespace Bus

theorem write_ram {address : UInt16} {cell : Fin 0x800}
    (h : address.toNat < 0x2000 → address.toNat % 0x800 ≠ cell) (b : Bus κ) (byte : UInt8) :
    (b.write address byte).ram.get cell = b.ram.get cell := by
  unfold write
  split
  · rename_i hit hregion
    have hmem : address.toNat < 0x2000 ∧ address.toNat % 0x800 = hit := by
      unfold Region.ofAddress at hregion
      split at hregion
      · rename_i hlt
        cases hregion
        exact ⟨UInt16.lt_iff_toNat_lt.mp hlt, rfl⟩
      · grind
    exact Vector.getElem_set_ne hit.isLt cell.isLt (by rw [← hmem.2]; exact h hmem.1)
  all_goals simp only [transfer, writeCartridge]

/-- What no access writes stays as it is. -/
theorem after_ram {accesses : List Access} {cell : Fin 0x800}
    (h : ∀ a ∈ written accesses, a < 0x2000 → a % 0x800 ≠ cell) (b : Bus κ) :
    (b.after accesses).ram.get cell = b.ram.get cell := by
  induction accesses generalizing b with
  | nil => rfl
  | cons a accesses ih =>
    cases a with
    | read purpose address =>
      refine (ih h _).trans ?_
      show (b.read address).2.ram.get cell = _
      rw [(OnlyRead.read b address).ram]
    | write address byte =>
      rw [written_write, List.forall_mem_cons] at h
      exact (ih h.2 _).trans (write_ram h.1 b byte)

end Bus

/-- What a program does to the bus are its accesses. -/
theorem Program.exec_after {α : Type} (p : Program α) (c : Core) (b : Bus κ) :
    (p.exec c b).2.2 = b.after (p.trace c b) := by
  induction p generalizing c b with
  | done a => rfl
  | jam => rfl
  | look next ih => exact ih c c b
  | change f next ih => exact ih _ b
  | note event next ih => exact ih c b
  | read purpose address next ih => exact ih _ c _
  | write address byte next ih => exact ih c _

/-! ### What actions write -/

def Processor.Action.writes (r : Registers) (operand : Option Nat) : Action → List Nat
  | .store .. | .modify .. => operand.toList
  | .push _ => pushes r.sp 1
  | .call => pushes r.sp 2
  | .interrupt => if r.p.interruptDisable then [] else pushes r.sp 3
  | _ => []

def Processor.Mnemonic.writes (r : Registers) (operand : Option Nat) : Mnemonic → List Nat
  | .sta | .stx | .sty | .sax | .sha | .shx | .shy | .tas => operand.toList
  | .asl | .lsr | .rol | .ror | .inc | .dec => operand.toList
  | .slo | .rla | .sre | .rra | .dcp | .isc => operand.toList
  | .pha | .php => pushes r.sp 1
  | .jsr => pushes r.sp 2
  | .brk => if r.p.interruptDisable then [] else pushes r.sp 3
  | _ => []

theorem Processor.Mnemonic.writes_action (mnemonic : Mnemonic) (mode : Mode) (r : Registers)
    (operand : Option Nat) :
    (mnemonic.action mode).writes r operand = mnemonic.writes r operand := by
  cases mnemonic <;> rfl

namespace Program

/-- The address of an operand in memory. -/
def operandTarget (c : Core) : Option Nat :=
  if c.operand.mode.addressesMemory then some c.operand.address.toNat else none

theorem push_trace (byte : UInt8) (c : Core) (b : Bus κ) :
    (push byte).trace c b = [.write c.stackAddress byte] := rfl

theorem pushes_two (sp : UInt8) : pushes sp 2 = [0x100 + sp.toNat, 0x100 + (sp - 1).toNat] := by
  simp [pushes, List.range_succ]

theorem pushes_three (sp : UInt8) :
    pushes sp 3 = [0x100 + sp.toNat, 0x100 + (sp - 1).toNat, 0x100 + (sp - 2).toNat] := by
  simp [pushes, List.range_succ]

theorem enterInterrupt_written (vector : UInt16) (byInstruction : Bool) (c : Core) (b : Bus κ) :
    written ((enterInterrupt vector byInstruction).trace c b) = pushes c.regs.sp 3 := by
  have htwo (sp : UInt8) : sp - 1 - 1 = sp - 2 := by grind
  simp only [enterInterrupt, pushWord, core, readWord, readPair, readByte, goto, modifyRegs,
    modifyCore, bind_eq, pure_eq, trace_bind, trace, exec_bind, exec, push_exec, push_trace,
    pushes_three, toNat_stackAddress, written_write, written_read, written_nil, htwo,
    List.append_nil, List.cons_append, List.nil_append]

theorem pushWord_written (w : UInt16) (c : Core) (b : Bus κ) :
    written ((pushWord w).trace c b) = pushes c.regs.sp 2 := by
  simp only [pushWord, bind_eq, trace_bind, push_exec, push_trace, pushes_two,
    toNat_stackAddress, written_write, written_nil, List.cons_append, List.nil_append]

/-- What only reads and changes registers adds nothing. -/
theorem written_bind {α β : Type} {p : Program α} {f : α → Program β}
    (hf : ∀ a c (b : Bus κ), written ((f a).trace c b) = []) (c : Core) (b : Bus κ) :
    written ((p.bind f).trace c b) = written (p.trace c b) := by
  rw [trace_bind, written_append]
  rcases p.exec c b with ⟨_ | a, c', b'⟩
  · exact List.append_nil _
  · exact (congrArg _ (hf a c' b')).trans (List.append_nil _)

theorem readOperand_written (c : Core) (b : Bus κ) : written (readOperand.trace c b) = [] := by
  show written (Program.trace (if c.operand.mode.addressesMemory then readByte c.operand.address
    else .done c.operand.data : Program UInt8) c b) = _
  split <;> rfl

theorem writeOperand_written {c : Core} (h : c.operand.mode.addressesMemory = true ∨
    c.operand.mode = .accumulator) (byte : UInt8) (b : Bus κ) :
    written ((writeOperand byte).trace c b) = (operandTarget c).toList := by
  rcases h with h | h
  · rw [(writeOperand_exec h byte).2, operandTarget, if_pos h]
    rfl
  · obtain ⟨r, pc, ⟨mode, address, data, base, crossed⟩⟩ := c
    obtain rfl : mode = .accumulator := h
    rfl

/-- **What an action writes.**  Its operand, if it is to be written, is in memory or is the
accumulator. -/
theorem perform_written {action : Action} {c : Core}
    (h : action.putsOperand = true → c.operand.mode.addressesMemory = true ∨
      c.operand.mode = .accumulator) (b : Bus κ) :
    written ((perform action).trace c b) = action.writes c.regs (operandTarget c) := by
  cases action with
  | compute f => rfl
  | load pays f =>
    show written (Program.trace (readOperand.bind _) c b) = _
    rw [written_bind (fun _ _ _ => rfl), readOperand_written]
    rfl
  | store byte settle =>
    show written (Program.trace ((writeOperand _).bind _) c b) = _
    rw [written_bind (fun _ _ _ => rfl), writeOperand_written (h rfl)]
    rfl
  | modify byte settle =>
    show written (Program.trace (readOperand.bind _) c b) = _
    rw [trace_bind, written_append, readOperand_written, readOperand_exec]
    show [] ++ written (((writeOperand _).bind _).trace c _) = _
    rw [written_bind (fun _ _ _ => rfl), writeOperand_written (h rfl)]
    rfl
  | branch taken =>
    show written (Program.trace (if taken c.regs.p then
        (goto c.operand.address).bind fun _ => .done (1 + pageCycle c.operand)
      else .done 0 : Program Nat) c b) = []
    split <;> rfl
  | jump => rfl
  | call =>
    show written (Program.trace (((pushWord (c.pc - 1)).bind _).bind _) c b) = _
    rw [written_bind (fun _ _ _ => rfl), written_bind fun _ c b => ?_, pushWord_written]
    · rfl
    · split <;> rfl
  | returnFromCall => rfl
  | returnFromInterrupt => rfl
  | interrupt =>
    show written (Program.trace (if c.regs.p.interruptDisable then .done 0
      else fetch.bind fun _ => (enterInterrupt Cpu.irqVector true).bind fun _ => .done 5 :
        Program Nat) c b) = if c.regs.p.interruptDisable then [] else pushes c.regs.sp 3
    split
    · rfl
    · show written (Program.trace ((enterInterrupt Cpu.irqVector true).bind _) _ _) = _
      rw [written_bind (fun _ _ _ => rfl), enterInterrupt_written]
  | push byte =>
    show written (Program.trace ((push (byte c.regs)).bind _) c b) = _
    rw [written_bind (fun _ _ _ => rfl), push_trace, written_write, toNat_stackAddress]
    simp [Action.writes, pushes]
  | pull f => rfl
  | jam => rfl

end Program

namespace Machine

variable {m m' : Machine κ}

/-! ### What steps write -/

/-- The addresses that the next step writes. -/
def footprint (m : Machine κ) : List Nat :=
  if m.nmiDue then pushes m.cpu.regs.sp 3
  else m.encoding.mnemonic.writes m.cpu.regs m.operandAt

theorem written_lookups (m : Machine κ) : written m.lookups = [] := by
  unfold lookups
  cases m.encoding.mode <;> rfl

theorem operandTarget_located (m : Machine κ) :
    Program.operandTarget m.located.1 = m.operandAt := by
  obtain ⟨-, -, hmode, haddress, -⟩ := m.located_spec
  have hsome := isSome_operandAddress (m.bus.read m.cpu.pc).2 m.cpu.pc m.cpu.regs m.encoding.mode
  rw [Program.operandTarget, hmode, ← hsome]
  cases hat : m.operandAt with
  | none => exact if_neg (by rw [show operandAddress .. = none from hat]; nofun)
  | some a =>
    rw [if_pos (by rw [show operandAddress .. = some a from hat]; rfl), haddress a hat]

theorem written_accesses {n : Nat} (hs : m.step = (.ran n, m')) :
    written m.accesses = m.footprint := by
  cases hdue : m.nmiDue with
  | true =>
    obtain ⟨haccesses, -⟩ := (step_eq_exec (ran_of_step hs).not_halted).resolve_left
      (by rw [hs]; nofun)
    rw [haccesses, program_of_due hdue, footprint, if_pos hdue]
    show written (Program.trace ((Program.enterInterrupt Cpu.nmiVector false).bind _) _ _) = _
    rw [Program.written_bind (fun _ _ _ => rfl), Program.enterInterrupt_written]
  | false =>
    have hputs (h : m.action.putsOperand = true) :
        m.located.1.operand.mode.addressesMemory = true ∨
          m.located.1.operand.mode = .accumulator := by
      rw [m.located_spec.2.2.mode_eq]
      exact (encoding_puts _ h).imp_right And.right
    rw [(carriedOut_of_ran hdue hs).accesses, footprint, if_neg (by simp [hdue]), written_read,
      written_append, written_lookups, Program.perform_written hputs, operandTarget_located,
      located_regs]
    exact Mnemonic.writes_action _ _ _ _

theorem bus_of_ran {n : Nat} (hs : m.step = (.ran n, m')) :
    m'.bus = (m.takeNmi.bus.after m.accesses).takeStall.2 := by
  obtain ⟨haccesses, j, hj⟩ := (step_eq_exec (ran_of_step hs).not_halted).resolve_left
    (by rw [hs]; nofun)
  rw [haccesses, ← Program.exec_after]
  rw [hs] at hj
  rcases hr : m.program.exec m.cpu.toCore m.takeNmi.bus with ⟨_ | k, c, b⟩ <;>
    rw [hr] at hj <;> cases hj
  rfl

/-- The step from `m` to `m'` stays within what it may reach. -/
structure Confined (m m' : Machine κ) : Prop where
  /-- these are all its writes, one after another -/
  writes : written m.accesses = m.footprint
  /-- every cell of memory that no write meets keeps its byte, memory being repeated -/
  memory : ∀ cell : Fin 0x800, (∀ a ∈ m.footprint, a < 0x2000 → a % 0x800 ≠ cell) →
    m'.bus.ram.get cell = m.bus.ram.get cell
  registers : ∀ register : ByteRegister,
    register.value m'.cpu.regs ≠ register.value m.cpu.regs → m.MayChange register

/-- **Every step that runs stays within its reach.** -/
theorem step_confined {n : Nat} (hs : m.step = (.ran n, m')) : m.Confined m' := by
  have hwritten := written_accesses hs
  refine ⟨hwritten, fun cell hcell => ?_, fun register hne =>
    Classical.byContradiction fun h => hne (value_of_not_mayChange hs h)⟩
  have hram : m.takeNmi.bus.ram = m.bus.ram := by
    unfold takeNmi
    split <;> rfl
  rw [bus_of_ran hs, ← hram]
  exact Bus.after_ram (hwritten ▸ hcell) _

/-- A machine about to rotate a byte of memory, by its address in the first repetition. -/
def rotatingMemory : Machine Board where
  cpu := { regs := { a := 0x55 } }
  bus := { Bus.plug Board.blank with
    ram := memoryWith [(0, 0x2E), (1, 0x10), (2, 0x08), (0x10, 0x81), (0x11, 0x77)] }

/-- The byte is written once, by that address; the byte after it and the accumulator stay. -/
theorem rotatingMemory_confined :
    written rotatingMemory.accesses = [0x0810] ∧ rotatingMemory.step.2.bus.ram[0x11] = 0x77 ∧
      rotatingMemory.step.2.cpu.regs.a = 0x55 := by
  have hs (m : Machine Board) (h : m.step.1 = .ran 6) : m.step = (.ran 6, m.step.2) :=
    Prod.ext h rfl
  have h := step_confined (hs rotatingMemory (by decide +kernel))
  have hrol : rotatingMemory.encoding = ⟨.rol, .absolute, 6, true⟩ := by decide +kernel
  have hfootprint : rotatingMemory.footprint = [0x0810] := by decide +kernel
  have hdue : rotatingMemory.nmiDue = false := rfl
  refine ⟨h.writes.trans hfootprint, ?_, ?_⟩
  · refine (h.memory 0x11 ?_).trans (by decide +kernel)
    rw [hfootprint]
    decide
  · refine Classical.byContradiction fun hne => ?_
    have hmay := h.registers .a hne
    simp [MayChange, hdue, hrol, ByteRegister.changedBy] at hmay

end Machine

end Famicom
