import Famicom.Proofs.Machine.Cost
import Famicom.Proofs.Machine.Polling
import Mathlib.Logic.Basic

/-!
# Cycles are counted exactly

How long a step takes is said here from the bytes of its instruction alone (`Machine.cost`): an
interrupt takes seven cycles, and an instruction what the opcode matrix says, one more where it
reads across a page, one or two more where it branches, five more where it breaks, and 512 more
where it starts a transfer.  A step reports exactly that and counts it, and a step that is taken
back, or that finds or leaves the processor halted, counts nothing (`Machine.step_counts`).

What an action adds to the cycles is a function of the operand that was found before
(`perform_extra`), and whether that has crossed a page, of the bytes it was found with
(`resolve_crossed`).  The flag is set anew for each operand, so nothing is left over from the
instruction before.
-/

namespace Famicom

open Processor

/-- The cycles that a step reports. -/
def Progress.reported : Progress → Nat
  | .ran cycles => cycles
  | _ => 0

/-- The word whose bytes are at two addresses, the low one being read first. -/
def Bus.wordAt {κ : Type} [Cartridge κ] (b : Bus κ) (low high : UInt16) : UInt16 :=
  wordOf ((b.read low).2.read high).1 (b.read low).1

/-- The access starts a transfer to the sprite list. -/
def Access.startsTransfer : Access → Bool
  | .write address _ => address == 0x4014
  | .read _ _ => false

namespace Machine

/-! ### The bytes of an instruction -/

section Bytes

variable {κ : Type} [Cartridge κ] (b : Bus κ) (pc : UInt16) (r : Registers)

/-- The addresses before and after an index is added, for the modes that may so leave a page.  The
opcode has been read from `pc`, and `b` is the bus after that. -/
def indexed : Mode → Option (UInt16 × UInt16)
  | .absoluteX =>
    let base := b.wordAt (pc + 1) (pc + 2)
    some (base, base + r.x.toUInt16)
  | .absoluteY =>
    let base := b.wordAt (pc + 1) (pc + 2)
    some (base, base + r.y.toUInt16)
  | .indirectIndexed =>
    let (pointer, b) := b.read (pc + 1)
    let base := b.wordAt pointer.toUInt16 (pointer + 1).toUInt16
    some (base, base + r.y.toUInt16)
  | _ => none

/-- Adding the index leaves the page. -/
def LeavesPage (mode : Mode) : Prop :=
  ∃ base effective, indexed b pc r mode = some (base, effective) ∧
    highByte base ≠ highByte effective

instance (mode : Mode) : Decidable (LeavesPage b pc r mode) :=
  decidable_of_iff (((indexed b pc r mode).any fun a => highByte a.1 != highByte a.2) = true) <| by
    simp [LeavesPage, Option.any_eq_true]

/-- Where a branch goes, and where it would go on otherwise. -/
def branchTarget : UInt16 := pc + 2 + signExtend (b.read (pc + 1)).1

end Bytes

/-- The instructions that take a cycle more where they read across a page. -/
def readers : List Mnemonic :=
  [.adc, .and, .cmp, .eor, .lda, .ldx, .ldy, .nop, .ora, .sbc, .las, .lax]

def branches : List Mnemonic := [.bcc, .bcs, .bne, .beq, .bpl, .bmi, .bvc, .bvs]

/-- A branch goes elsewhere if one of the flags is what it asks for. -/
def condition (p : Status) : Mnemonic → Option Bool
  | .bcc => some (p.carry == false)
  | .bcs => some (p.carry == true)
  | .bne => some (p.zero == false)
  | .beq => some (p.zero == true)
  | .bpl => some (p.negative == false)
  | .bmi => some (p.negative == true)
  | .bvc => some (p.overflow == false)
  | .bvs => some (p.overflow == true)
  | _ => none

variable {κ : Type} [Cartridge κ]

/-- What an instruction adds to the cycles of its opcode: a cycle if it reads across a page, one or
two if it branches, and five if it breaks. -/
def extraCycles (b : Bus κ) (pc : UInt16) (r : Registers) (e : Encoding) : Nat :=
  (if e.mnemonic ∈ readers ∧ LeavesPage b pc r e.mode then 1 else 0)
    + (if condition r.p e.mnemonic = some true then
        if highByte (branchTarget b pc) = highByte (pc + 2) then 1 else 2
      else 0)
    + if e.mnemonic = .brk ∧ r.p.interruptDisable = false then 5 else 0

/-- What a step takes that is carried out. -/
def cost (m : Machine κ) : Nat :=
  if m.nmiDue then 7
  else
    let e := Encoding.decode (Program.opcodeAt m)
    e.cycles + extraCycles (m.bus.read m.cpu.pc).2 m.cpu.pc m.cpu.regs e
      + if m.accesses.any Access.startsTransfer then 512 else 0

end Machine

/-! ### Actions -/

/-- What an action adds to the cycles of its opcode, from what is known once the operand has been
found. -/
def Processor.Action.extra (c : Core) : Action → Nat
  | .load pays _ => if pays then Program.pageCycle c.operand else 0
  | .branch taken => if taken c.regs.p then 1 + Program.pageCycle c.operand else 0
  | .interrupt => if c.regs.p.interruptDisable then 0 else 5
  | _ => 0

namespace Program

variable {α κ : Type} [Cartridge κ]

theorem readOperand_keeps (c : Core) : readOperand.Obeys {} (fun _ c' => c' = c) c := by
  show (if c.operand.mode.addressesMemory then readByte c.operand.address
    else .done c.operand.data : Program UInt8).Obeys {} (fun _ c' => c' = c) c
  split
  · exact .inr ⟨trivial, fun _ => rfl⟩
  · exact rfl

/-- What an action tells depends on the flags and on the operand, and not on what is read. -/
theorem perform_extra (action : Action) (c : Core) :
    (perform action).Obeys {} (fun n _ => n = action.extra c) c := by
  have zero (p : Program Unit) (c : Core) :
      (p.bind fun _ => .done 0).Obeys {} (fun n _ => n = 0) c :=
    (Obeys.free p c).bind fun _ _ _ => rfl
  cases action with
  | compute f => exact zero _ c
  | load pays f =>
    refine (readOperand_keeps c).bind fun byte c₁ hc => ?_
    subst hc
    exact ⟨trivial, rfl⟩
  | store byte settle =>
    exact (Obeys.free core c).bind fun _ c _ => (Obeys.free _ c).bind fun _ c _ => zero _ c
  | modify byte settle =>
    refine (Obeys.free _ c).bind fun _ c _ => (Obeys.free core c).bind fun _ c _ => ?_
    exact (Obeys.free _ c).bind fun _ c _ => zero _ c
  | branch taken =>
    show (if taken c.regs.p then
        (goto c.operand.address).bind fun _ => .done (1 + pageCycle c.operand)
      else .done 0 : Program Nat).Obeys {} (fun n _ => n = (Action.branch taken).extra c) c
    rw [Action.extra]
    split
    · exact ⟨trivial, rfl⟩
    · exact rfl
  | jump => exact (Obeys.free core c).bind fun _ c _ => zero _ c
  | call => exact zero _ c
  | returnFromCall => exact (Obeys.free _ c).bind fun _ c _ => zero _ c
  | returnFromInterrupt =>
    refine (Obeys.free _ c).bind fun _ c _ => (Obeys.free _ c).bind fun _ c _ => ?_
    exact (Obeys.free _ c).bind fun _ c _ => zero _ c
  | interrupt =>
    show (if c.regs.p.interruptDisable then .done 0
      else fetch.bind fun _ => (enterInterrupt Cpu.irqVector true).bind fun _ => .done 5 :
        Program Nat).Obeys {} (fun n _ => n = Action.interrupt.extra c) c
    rw [Action.extra]
    split
    · exact rfl
    · exact (Obeys.free _ c).bind fun _ c _ => (Obeys.free _ c).bind fun _ _ _ => rfl
  | push byte => exact (Obeys.free core c).bind fun _ c _ => zero _ c
  | pull f => exact (Obeys.free _ c).bind fun _ c _ => zero _ c
  | jam => trivial

/-! ### Operands -/

/-- Whether finding an operand leaves a page; `b` is the bus after the opcode has been read from
`pc`. -/
def crossed (b : Bus κ) (pc : UInt16) (r : Registers) (mode : Mode) : Prop :=
  match mode with
  | .relative => highByte (Machine.branchTarget b pc) ≠ highByte (pc + 2)
  | mode => Machine.LeavesPage b pc r mode

theorem leavesPage_iff {b : Bus κ} {pc : UInt16} {r : Registers} {mode : Mode}
    {base effective : UInt16} (h : Machine.indexed b pc r mode = some (base, effective)) :
    Machine.LeavesPage b pc r mode ↔ highByte base ≠ highByte effective := by
  constructor
  · rintro ⟨base', effective', heq, hne⟩
    cases h.symm.trans heq
    exact hne
  · exact fun hne => ⟨base, effective, h, hne⟩

theorem not_samePage {a b : UInt16} : (!samePage a b) = true ↔ highByte a ≠ highByte b := by
  simp [samePage]

/-- Finding an operand changes no register, and says whether it has left a page. -/
theorem resolve_crossed (mode : Mode) {c : Core} {pc : UInt16} (hpc : c.pc = pc + 1) (b : Bus κ) :
    ∃ c' b', (resolve mode).exec c b = (some (), c', b') ∧ c'.regs = c.regs ∧
      (c'.operand.pageCrossed = true ↔ crossed b pc c.regs mode) := by
  obtain ⟨r, pc', o⟩ := c
  obtain rfl : pc' = pc + 1 := hpc
  have htwo : pc + 1 + 1 = pc + 2 := by grind
  have hnone (h : Machine.indexed b pc r mode = none) :
      false = true ↔ Machine.LeavesPage b pc r mode := by
    simp [Machine.LeavesPage, h]
  cases mode with
  | implied | accumulator | immediate | zeroPage | zeroPageX | zeroPageY | absolute | indirect
  | indexedIndirect => exact ⟨_, _, rfl, rfl, hnone rfl⟩
  | relative =>
    refine ⟨_, _, rfl, rfl, ?_⟩
    show (!samePage (pc + 1 + 1) (pc + 1 + 1 + signExtend (b.read (pc + 1)).1)) = true ↔ _
    rw [not_samePage, htwo]
    exact ne_comm
  | absoluteX =>
    refine ⟨_, _, rfl, rfl, ?_⟩
    show (!samePage (b.wordAt (pc + 1) (pc + 1 + 1) + r.x.toUInt16)
      (b.wordAt (pc + 1) (pc + 1 + 1))) = true ↔ _
    rw [not_samePage, htwo]
    exact ne_comm.trans (leavesPage_iff rfl).symm
  | absoluteY =>
    refine ⟨_, _, rfl, rfl, ?_⟩
    show (!samePage (b.wordAt (pc + 1) (pc + 1 + 1) + r.y.toUInt16)
      (b.wordAt (pc + 1) (pc + 1 + 1))) = true ↔ _
    rw [not_samePage, htwo]
    exact ne_comm.trans (leavesPage_iff rfl).symm
  | indirectIndexed =>
    refine ⟨_, _, rfl, rfl, ?_⟩
    show (!samePage ((b.read (pc + 1)).2.wordAt (b.read (pc + 1)).1.toUInt16
        (wordOf (highByte (b.read (pc + 1)).1.toUInt16)
          (lowByte (b.read (pc + 1)).1.toUInt16 + 1)) + r.y.toUInt16)
      ((b.read (pc + 1)).2.wordAt (b.read (pc + 1)).1.toUInt16
        (wordOf (highByte (b.read (pc + 1)).1.toUInt16)
          (lowByte (b.read (pc + 1)).1.toUInt16 + 1)))) = true ↔ _
    rw [not_samePage, readWordInPage_next]
    exact ne_comm.trans (leavesPage_iff rfl).symm

/-! ### Transfers -/

/-- Every transfer holds the bus. -/
theorem exec_stall (p : Program α) (c : Core) (b : Bus κ) :
    (p.exec c b).2.2.stall =
      b.stall + Bus.transferCycles * (p.trace c b).countP Access.startsTransfer := by
  induction p generalizing c b with
  | done a => rfl
  | jam => rfl
  | look next ih => exact ih c c b
  | change f next ih => exact ih (f c) b
  | note event next ih => exact ih c b
  | read purpose address next ih =>
    have hread : (b.read address).2.stall = b.stall := Bus.read_stall
    exact hread ▸ ih _ c (b.read address).2
  | write address byte next ih =>
    rw [exec, ih, trace, List.countP_cons]
    by_cases h : address = 0x4014
    · subst h
      have hwrite : (b.write 0x4014 byte).stall = b.stall + Bus.transferCycles := rfl
      have hstarts : (Access.write 0x4014 byte).startsTransfer = true := rfl
      rw [hwrite, hstarts, if_pos rfl, Nat.mul_succ]
      omega
    · have hwrite : (b.write address byte).stall = b.stall := Bus.write_stall h
      have hstarts : (Access.write address byte).startsTransfer = false := beq_eq_false_iff_ne.mpr h
      rw [hwrite, hstarts, if_neg Bool.false_ne_true, Nat.add_zero]

/-! ### Instructions -/

theorem action_extra (mnemonic : Mnemonic) (mode : Mode) (c : Core) :
    (mnemonic.action mode).extra c =
      (if mnemonic ∈ Machine.readers ∧ c.operand.pageCrossed = true then 1 else 0)
        + (if Machine.condition c.regs.p mnemonic = some true then 1 + pageCycle c.operand else 0)
        + if mnemonic = .brk ∧ c.regs.p.interruptDisable = false then 5 else 0 := by
  cases mnemonic with
  | brk =>
    cases h : c.regs.p.interruptDisable <;>
      simp [Mnemonic.action, Action.extra, Machine.readers, Machine.condition, h]
  | _ =>
    simp [Mnemonic.action, Action.plainStore, Action.flags, Action.extra, Machine.readers,
      Machine.condition, pageCycle]

/-- The branches are exactly the instructions with a distance, which no other reads across. -/
theorem encoding_relative (opcode : UInt8) (p : Status) :
    let e := Encoding.decode opcode
    (e.mnemonic ∈ Machine.readers → e.mode ≠ .relative) ∧
      (Machine.condition p e.mnemonic = some true → e.mode = .relative) := by
  have hall : ∀ opcode, let e := Encoding.decode opcode
      (e.mnemonic ∈ Machine.readers → e.mode ≠ .relative) ∧
        (e.mnemonic ∈ Machine.branches → e.mode = .relative) := by decide +kernel
  have hmem (mnemonic : Mnemonic) (h : Machine.condition p mnemonic = some true) :
      mnemonic ∈ Machine.branches := by
    cases mnemonic <;> first | decide | cases h
  exact ⟨(hall opcode).1, fun h => (hall opcode).2 (hmem _ h)⟩

/-- What an opcode adds, the operand having been found, in terms of the bytes it was found with. -/
theorem extra_eq_extraCycles (opcode : UInt8) {c : Core} {b : Bus κ} {pc : UInt16} {r : Registers}
    (hregs : c.regs = r)
    (hcrossed : c.operand.pageCrossed = true ↔ crossed b pc r (Encoding.decode opcode).mode) :
    ((Encoding.decode opcode).mnemonic.action (Encoding.decode opcode).mode).extra c =
      Machine.extraCycles b pc r (Encoding.decode opcode) := by
  obtain ⟨hreads, hbranches⟩ := encoding_relative opcode r.p
  rw [action_extra, hregs, Machine.extraCycles]
  congr 2
  · refine if_congr (and_congr_right fun hmem => ?_) rfl rfl
    rw [hcrossed]
    have hmode := hreads hmem
    unfold crossed
    split
    · contradiction
    · exact Iff.rfl
  · by_cases htaken : Machine.condition r.p (Encoding.decode opcode).mnemonic = some true
    · rw [if_pos htaken, if_pos htaken, pageCycle]
      rw [hbranches htaken] at hcrossed
      by_cases hpage : highByte (Machine.branchTarget b pc) = highByte (pc + 2)
      · rw [if_pos hpage, if_neg (mt hcrossed.mp (not_not_intro hpage))]
      · rw [if_neg hpage, if_pos (hcrossed.mpr hpage)]
    · rw [if_neg htaken, if_neg htaken]

theorem execute_of_allowed {undocumented : Bool} {opcode : UInt8}
    (h : allowed undocumented opcode = true) (c : Core) (b : Bus κ) :
    (execute undocumented opcode).exec c b =
      ((resolve (Encoding.decode opcode).mode).bind fun _ =>
        (perform ((Encoding.decode opcode).mnemonic.action (Encoding.decode opcode).mode)).bind
          fun extra => .done ((Encoding.decode opcode).cycles + extra)).exec c b := by
  simp [execute, allow, h, bind, exec, record]

theorem execute_of_not_allowed {undocumented : Bool} {opcode : UInt8}
    (h : allowed undocumented opcode = false) (c : Core) (b : Bus κ) :
    (execute undocumented opcode).exec c b = (none, c, b) := by
  simp [execute, allow, h, bind, exec]

theorem instruction_cost {undocumented : Bool} {c c' : Core} {b b' : Bus κ} {n : Nat}
    (h : (instruction undocumented).exec c b = (some n, c', b')) :
    n = (Encoding.decode (b.read c.pc).1).cycles +
      Machine.extraCycles (b.read c.pc).2 c.pc c.regs (Encoding.decode (b.read c.pc).1) := by
  have hexecute : (execute undocumented (b.read c.pc).1).exec { c with pc := c.pc + 1 }
      (b.read c.pc).2 = (some n, c', b') := h
  generalize (b.read c.pc).1 = opcode at *
  cases hallowed : allowed undocumented opcode with
  | false =>
    rw [execute_of_not_allowed hallowed] at hexecute
    cases hexecute
  | true =>
    obtain ⟨c₁, b₁, hresolve, hregs, hcrossed⟩ := resolve_crossed (Encoding.decode opcode).mode
      (c := { c with pc := c.pc + 1 }) rfl (b.read c.pc).2
    rw [execute_of_allowed hallowed, exec_bind, hresolve] at hexecute
    dsimp only at hexecute
    rw [exec_bind] at hexecute
    have hextra := (perform_extra ((Encoding.decode opcode).mnemonic.action
      (Encoding.decode opcode).mode) c₁).exec (b := b₁)
    rcases hperform : (perform ((Encoding.decode opcode).mnemonic.action
      (Encoding.decode opcode).mode)).exec c₁ b₁ with ⟨_ | extra, c₂, b₂⟩ <;>
      rw [hperform] at hexecute hextra
    · cases hexecute
    · cases hexecute
      rw [hextra extra rfl, extra_eq_extraCycles opcode hregs hcrossed]

end Program

namespace Machine

variable {κ : Type} [Cartridge κ] {m m' : Machine κ}

/-! ### Steps -/

/-- What a program tells and what its transfers hold the bus for is what the step costs. -/
theorem cost_of_exec {c : Core} {b : Bus κ} {n : Nat} (hstall : m.bus.stall = 0)
    (haccesses : m.accesses = m.program.trace m.cpu.toCore m.takeNmi.bus)
    (h : m.program.exec m.cpu.toCore m.takeNmi.bus = (some n, c, b)) : n + b.stall = m.cost := by
  have hzero : m.takeNmi.bus.stall = 0 := by rw [takeNmi_stall, hstall]
  cases hdue : m.nmiDue with
  | true =>
    have hseven : m.program.Obeys {} (fun n _ => n = 7) m.cpu.toCore := by
      rw [program_of_due hdue]
      exact (Program.Obeys.free _ _).bind fun _ _ _ => rfl
    have hends : m.program.Ends 0 := by
      rw [program_of_due hdue]
      exact (Program.enterInterrupt_ends _ _).bind fun _ => trivial
    have hn := hseven.exec (b := m.takeNmi.bus) n (congrArg (·.1) h)
    have hle := (hends.exec (c := m.cpu.toCore) (b := m.takeNmi.bus)).2
    rw [h, hzero] at hle
    have hnone : b.stall = 0 := Nat.le_zero.mp hle
    rw [cost, if_pos hdue, hn, hnone]
  | false =>
    have hcount := m.program.exec_stall m.cpu.toCore m.takeNmi.bus
    have hle := (m.program_stall m.cpu.toCore m.takeNmi.bus).2
    rw [h, hzero, Nat.zero_add] at hcount hle
    rw [← haccesses] at hcount
    dsimp only at hcount hle
    rw [program_of_not_due hdue, takeNmi_of_not_due hdue] at h
    rw [cost, hdue, if_neg Bool.false_ne_true, Program.instruction_cost h]
    refine congrArg _ ?_
    -- of the accesses one at most starts a transfer
    rw [hcount] at hle ⊢
    have hone : m.accesses.countP Access.startsTransfer ≤ 1 :=
      Nat.le_of_mul_le_mul_left hle (by decide)
    by_cases hany : m.accesses.any Access.startsTransfer = true
    · have hpos : 0 < m.accesses.countP Access.startsTransfer :=
        List.countP_pos_iff.mpr (List.any_eq_true.mp hany)
      rw [if_pos hany, Nat.le_antisymm hone hpos]
      rfl
    · have hnone : m.accesses.countP Access.startsTransfer = 0 := by
        rw [List.countP_eq_zero]
        exact fun a ha hstarts => hany (List.any_eq_true.mpr ⟨a, ha, hstarts⟩)
      rw [if_neg hany, hnone]
      rfl

theorem step_stall (h : m.bus.stall = 0) : m.step.2.bus.stall = 0 := by
  rcases hs : m.step with ⟨p, m'⟩
  cases p with
  | ran n => exact (ran_of_step hs).stall
  | waits =>
    show m'.bus.stall = 0
    rw [bus_of_waits hs, h]
  | halted pc => exact Nat.le_zero.mp (h ▸ (stopped_of_step hs).stall)

theorem step_reported (m : Machine κ) :
    m.step.2.cpu.cycles = m.cpu.cycles + .ofNat m.step.1.reported ∧
      m.step.2.cpu.totalCycles = m.cpu.totalCycles + m.step.1.reported := by
  cases hh : m.cpu.halted with
  | true =>
    rw [step_of_halted hh]
    exact ⟨(UInt32.add_zero _).symm, rfl⟩
  | false =>
    by_cases hwaits : m.step.1 = .waits
    · have hcpu := cpu_of_waits (Prod.ext hwaits rfl : m.step = (.waits, m.step.2))
      rw [hcpu, hwaits]
      exact ⟨(UInt32.add_zero _).symm, rfl⟩
    · obtain ⟨j, hj⟩ := step_of_ne_waits hh hwaits
      rw [hj]
      rcases m.program.exec m.cpu.toCore m.takeNmi.bus with ⟨_ | n, c, b⟩
      · rw [show m.cpu = m.takeNmi.cpu from (takeNmi_cpu m).symm]
        exact ⟨(UInt32.add_zero _).symm, rfl⟩
      · rw [show m.cpu = m.takeNmi.cpu from (takeNmi_cpu m).symm]
        exact ⟨rfl, rfl⟩

/-- **Cycles are counted exactly.**  A step that is carried out reports what it costs.  Both
counters go on by what a step reports, that of the frame within its word, and by nothing where the
step is taken back or the processor does not run; and no transfer is left to be accounted for. -/
theorem step_counts (m : Machine κ) (hstall : m.bus.stall = 0) :
    (∀ n m', m.step = (.ran n, m') → n = m.cost) ∧
      m.step.2.cpu.cycles.toNat = (m.cpu.cycles.toNat + m.step.1.reported) % UInt32.size ∧
      m.step.2.cpu.totalCycles = m.cpu.totalCycles + m.step.1.reported ∧
      m.step.2.bus.stall = 0 := by
  obtain ⟨hcycles, htotal⟩ := m.step_reported
  refine ⟨fun n m' hs => ?_, ?_, htotal, step_stall hstall⟩
  · have hh := (ran_of_step hs).not_halted
    obtain ⟨haccesses, j, hj⟩ := (step_eq_exec hh).resolve_left (by rw [hs]; simp)
    rcases hr : m.program.exec m.cpu.toCore m.takeNmi.bus with ⟨_ | k, c, b⟩ <;> rw [hr] at hj
    · cases hs.symm.trans hj
    · cases hs.symm.trans hj
      exact cost_of_exec hstall haccesses hr
  · rw [hcycles, UInt32.toNat_add, UInt32.toNat_ofNat']
    show _ = _ % 4294967296
    omega

/-- A machine about to store into the transfer register, at an address that an index moves there
from the page before. -/
def pagedStore : Machine Board where
  cpu := { regs := { x := 0x15 } }
  bus := { Bus.plug Board.blank with
    ram := ((Vector.replicate 0x800 0).set 0 0x9D |>.set 1 0xFF |>.set 2 0x3F) }

/-- Leaving the page costs a store nothing, but the transfer that it starts 512 cycles. -/
theorem pagedStore_counts :
    pagedStore.step.1 = .ran 517 ∧ pagedStore.cost = 517 ∧
      pagedStore.step.2.cpu.totalCycles = 517 ∧ pagedStore.step.2.bus.stall = 0 := by
  have hran : pagedStore.step.1 = .ran 517 := by rfl
  obtain ⟨hcost, -, htotal, hstall⟩ := step_counts pagedStore rfl
  refine ⟨hran, (hcost 517 _ (Prod.ext hran rfl)).symm, ?_, hstall⟩
  rw [htotal, hran]
  rfl

end Machine

end Famicom
