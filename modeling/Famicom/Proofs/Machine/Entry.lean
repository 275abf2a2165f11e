import Famicom.Proofs.Machine.Step

/-!
# Steps that go elsewhere

Two kinds of step, carried out: a step with an interrupt of the picture unit due enters it, whatever
instruction would come next and whether or not interrupts are disabled (`step_of_due`), and a jump
goes to the address that follows its opcode (`exec_jump`).  What goes on the stack is found again
where the stack pointer was, wherever that is (`stacked_cells`, `linked_cells`).
-/

namespace Famicom

open Processor

variable {κ : Type} [Cartridge κ]

/-! ### The stack -/

/-- The cell of memory that the next byte on the stack goes to. -/
def stackCell (sp : UInt8) : Fin 0x800 :=
  ⟨0x100 + sp.toNat, by have : sp.toNat < 256 := sp.toNat_lt; omega⟩

/-- The bus with the way back, its high byte first, and the flags on the stack. -/
def Bus.stacked (b : Bus κ) (sp : UInt8) (back : UInt16) (flags : UInt8) : Bus κ :=
  { b with
    ram := ((b.ram.set (stackCell sp) (highByte back)).set (stackCell (sp - 1))
      (lowByte back)).set (stackCell (sp - 2)) flags }

theorem stackCell_inj {sp sp' : UInt8} : stackCell sp = stackCell sp' ↔ sp = sp' := by
  rw [stackCell, stackCell, Fin.mk.injEq, Nat.add_left_cancel_iff, UInt8.toNat_inj]

theorem getElem_set_stackCell (ram : Vector UInt8 0x800) (sp sp' byte : UInt8) :
    (ram.set (stackCell sp) byte)[stackCell sp'] =
      if sp = sp' then byte else ram[stackCell sp'] := by
  rw [Fin.getElem_fin, Vector.getElem_set, Fin.getElem_fin]
  simp only [Fin.val_inj, stackCell_inj]

namespace Bus

/-- The byte of the stack that a stack pointer stands for. -/
def onStack (b : Bus κ) (sp : UInt8) : UInt8 := b.ram[stackCell sp]

omit [Cartridge κ] in
theorem onStack_congr {b b' : Bus κ} (h : b'.ram = b.ram) : b'.onStack = b.onStack := by
  funext sp
  simp only [onStack, h]

/-- The bus with the way back on the stack, its high byte first. -/
def linked (b : Bus κ) (sp : UInt8) (back : UInt16) : Bus κ :=
  { b with
    ram := (b.ram.set (stackCell sp) (highByte back)).set (stackCell (sp - 1)) (lowByte back) }

omit [Cartridge κ] in
theorem linked_cells (b : Bus κ) (sp : UInt8) (back : UInt16) :
    (b.linked sp back).onStack sp = highByte back ∧
      (b.linked sp back).onStack (sp - 1) = lowByte back := by
  have hone : sp - 1 ≠ sp := by grind
  simp only [onStack, linked, getElem_set_stackCell, hone, if_true, if_false, and_self]

omit [Cartridge κ] in
theorem stacked_cells (b : Bus κ) (sp : UInt8) (back : UInt16) (flags : UInt8) :
    (b.stacked sp back flags).onStack sp = highByte back ∧
      (b.stacked sp back flags).onStack (sp - 1) = lowByte back ∧
      (b.stacked sp back flags).onStack (sp - 2) = flags := by
  have hone : sp - 1 ≠ sp := by grind
  have htwo : sp - 2 ≠ sp := by grind
  have hboth : sp - 2 ≠ sp - 1 := by grind
  simp only [onStack, stacked, getElem_set_stackCell, hone, htwo, hboth, if_true, if_false,
    and_self]

end Bus

theorem Region.ofAddress_stackAddress (c : Core) :
    Region.ofAddress c.stackAddress = .ram (stackCell c.regs.sp) := by
  have hnat : c.stackAddress.toNat = 0x100 + c.regs.sp.toNat := toNat_wordOf 1 c.regs.sp
  have hsp : c.regs.sp.toNat < 256 := c.regs.sp.toNat_lt
  have hlt : c.stackAddress < 0x2000 := by
    rw [UInt16.lt_iff_toNat_lt, hnat]
    show _ < 8192
    omega
  rw [ofAddress, if_pos hlt]
  congr 2
  rw [hnat]
  exact Nat.mod_eq_of_lt (by omega)

namespace Program

theorem push_exec (byte : UInt8) (c : Core) (b : Bus κ) :
    (push byte).exec c b = (some (), { c with regs := { c.regs with sp := c.regs.sp - 1 } },
      { b with ram := b.ram.set (stackCell c.regs.sp) byte }) := by
  have hwrite : b.write c.stackAddress byte =
      { b with ram := b.ram.set (stackCell c.regs.sp) byte } := by
    rw [Bus.write, Region.ofAddress_stackAddress]
  show (some (), _, b.write c.stackAddress byte) = _
  rw [hwrite]

theorem pop_exec (c : Core) (b : Bus κ) :
    pop.exec c b = (some (b.onStack (c.regs.sp + 1)),
      { c with regs := { c.regs with sp := c.regs.sp + 1 } }, b) := by
  let c' : Core := { c with regs := { c.regs with sp := c.regs.sp + 1 } }
  have hread : b.read c'.stackAddress = (b.onStack c'.regs.sp, b) := by
    rw [Bus.read, Region.ofAddress_stackAddress]
    rfl
  show (some (b.read c'.stackAddress).1, c', (b.read c'.stackAddress).2) = _
  rw [hread]

/-! ### Entering an interrupt -/

theorem enterInterrupt_exec {vector : UInt16} (hlow : Region.ofAddress vector = .cartridge)
    (hhigh : Region.ofAddress (vector + 1) = .cartridge) (byInstruction : Bool) (c : Core)
    (b : Bus κ) :
    (enterInterrupt vector byInstruction).exec c b =
      (some (),
        { c with
          pc := wordOf (b.readCartridge (vector + 1)) (b.readCartridge vector)
          regs := { c.regs with
            sp := c.regs.sp - 3
            p := { c.regs.p with interruptDisable := true } } },
        b.stacked c.regs.sp c.pc (c.regs.p.pushed byInstruction)) := by
  have htwo (sp : UInt8) : sp - 1 - 1 = sp - 2 := by grind
  have hthree (sp : UInt8) : sp - 2 - 1 = sp - 3 := by grind
  have hread (b : Bus κ) {address : UInt16} (h : Region.ofAddress address = .cartridge) :
      b.read address = (b.readCartridge address, b) := by
    rw [Bus.read, h]
  simp only [enterInterrupt, pushWord, core, readWord, readPair, readByte, goto, modifyRegs,
    modifyCore, bind_eq, pure_eq, exec_bind, exec, push_exec, hread _ hlow, hread _ hhigh, htwo,
    hthree]
  rfl

end Program

/-- The machine after it has entered the interrupt of the picture unit. -/
def Machine.nmiEntered (m : Machine κ) : Machine κ :=
  let r := m.cpu.regs
  { cpu := { m.cpu with
      pc := wordOf (m.bus.peek 0xFFFB) (m.bus.peek 0xFFFA)
      regs := { r with sp := r.sp - 3, p := { r.p with interruptDisable := true } }
      cycles := m.cpu.cycles + 7
      totalCycles := m.cpu.totalCycles + 7 }
    bus := { m.bus.stacked r.sp m.cpu.pc (r.p.pushed false) with
      video := m.bus.video.takeNmi.2 }
    journal := m.journal }

/-- What the entry has nothing to do with. -/
theorem Machine.nmiEntered_keeps (m : Machine κ) :
    m.nmiEntered.cpu.halted = m.cpu.halted ∧ m.nmiEntered.cpu.sync = m.cpu.sync ∧
      m.nmiEntered.bus.stall = m.bus.stall ∧ m.nmiEntered.bus.gameGenie = m.bus.gameGenie ∧
      m.nmiEntered.bus.video.regs.control = m.bus.video.regs.control := by
  simp only [nmiEntered, Bus.stacked, Picture.Video.takeNmi, and_self]

/-- **A due interrupt is entered.**  This is so whatever instruction would come next, and also while
interrupts are disabled. -/
theorem Machine.step_of_due {m : Machine κ} (hh : m.cpu.halted = false) (hdue : m.nmiDue = true)
    (hwait : m.cpu.sync.mustWait = false) (hstall : m.bus.stall = 0) :
    ∃ journal, m.step = (.ran 7, { m.nmiEntered with journal }) := by
  obtain ⟨-, journal, hstep⟩ := (step_eq_exec hh).resolve_left (step_ne_waits hwait)
  have htake : m.takeNmi = { m with bus := { m.bus with video := m.bus.video.takeNmi.2 } } := by
    rw [takeNmi, if_pos hdue]
  have hretry : m.cpu.sync.retrying = false := by
    rw [nmiDue, Bool.and_eq_true, Bool.not_eq_true'] at hdue
    exact hdue.1
  have hsync : { m.cpu.sync with retrying := false } = m.cpu.sync := by
    rw [← hretry]
  refine ⟨journal, ?_⟩
  rw [hstep, program_of_due hdue, htake, interrupt, Program.bind_eq, Program.exec_bind,
    Program.enterInterrupt_exec rfl rfl]
  have hlow : m.bus.peek 0xFFFA = m.bus.readCartridge 0xFFFA := rfl
  have hhigh : m.bus.peek 0xFFFB = m.bus.readCartridge 0xFFFB := rfl
  simp only [Program.pure_eq, Program.exec, Program.outcome, finish, settle, Bus.takeStall,
    nmiEntered, Bus.stacked, hstall, hsync, hlow, hhigh]
  rfl

/-! ### Jumping -/

open Program in
theorem Program.exec_jump {c : Core} {b : Bus κ} {low high : UInt8}
    (hopcode : b.read c.pc = (0x4C, b)) (hlow : b.read (c.pc + 1) = (low, b))
    (hhigh : b.read (c.pc + 2) = (high, b)) (undocumented : Bool) :
    ∃ operand, (instruction undocumented).exec c b =
      (some 3, { c with pc := wordOf high low, operand }, b) := by
  have hjump : Encoding.decode 0x4C = ⟨.jmp, .absolute, 3, true⟩ := by rfl
  have htwo : c.pc + 1 + 1 = c.pc + 2 := by grind
  refine ⟨({ c.operand with mode := .absolute } : Operand).setAddress (wordOf high low), ?_⟩
  simp only [instruction, execute, allow, allowed, record, resolve, perform, fetch, fetchWord, core,
    goto, modifyOperand, modifyCore, bind_eq, pure_eq, Program.bind, exec, hopcode, hjump, htwo,
    hlow, hhigh, Bool.true_or, if_true, Mnemonic.action]
  rfl

end Famicom
