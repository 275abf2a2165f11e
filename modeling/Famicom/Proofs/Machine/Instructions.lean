import Famicom.Proofs.Machine.Actions
import Famicom.Proofs.Machine.Operands

/-!
# Instructions carried out

An instruction acts on a core and a bus that are known from its bytes (`Machine.located`), so a step
that ran without an interrupt has done its action there and nothing else (`carriedOut_of_ran`), and
one that need not wait and may run is carried out (`exists_ran`).

What it accesses once its operand is found is that operand, and it goes on behind its bytes unless
it is one of those that go elsewhere (`step_resolved`).
-/

namespace Famicom

open Processor

variable {κ : Type} [Cartridge κ]

namespace Machine

variable {m m' : Machine κ}

/-! ### Steps -/

def encoding (m : Machine κ) : Encoding := .decode (Program.opcodeAt m)

theorem encoding_of_opcode {opcode : UInt8} {e : Encoding} (hop : Program.opcodeAt m = opcode)
    (he : Encoding.decode opcode = e) : m.encoding = e :=
  (congrArg Encoding.decode hop).trans he

def action (m : Machine κ) : Action := m.encoding.mnemonic.action m.encoding.mode

def operandAt (m : Machine κ) : Option Nat :=
  operandAddress (m.bus.read m.cpu.pc).2 m.cpu.pc m.cpu.regs m.encoding.mode

/-- The accesses that find its operand. -/
def lookups (m : Machine κ) : List Access :=
  finding (m.bus.read m.cpu.pc).2 m.cpu.pc m.cpu.regs m.encoding.mode

/-- What the instruction in hand works on, and the bus, once it has found its operand. -/
def located (m : Machine κ) : Core × Bus κ :=
  ((Program.resolve m.encoding.mode).exec { m.cpu.toCore with pc := m.cpu.pc + 1 }
    (m.bus.read m.cpu.pc).2).2

/-- **What finding its operand has done to the instruction in hand.** -/
theorem located_spec (m : Machine κ) :
    m.located.1 = { m.cpu.toCore with
        pc := m.cpu.pc + 1 + .ofNat m.encoding.mode.operandBytes
        operand := m.located.1.operand } ∧
      m.located.2 = (m.bus.read m.cpu.pc).2.after m.lookups ∧
      Found (m.bus.read m.cpu.pc).2 m.cpu.pc m.cpu.regs m.encoding.mode m.located.1.operand := by
  obtain ⟨o, hexec, -, hfound⟩ := Program.resolve_exec m.encoding.mode
    (c := { m.cpu.toCore with pc := m.cpu.pc + 1 }) rfl (m.bus.read m.cpu.pc).2
  have hlocated : m.located = _ := congrArg (·.2) hexec
  rw [hlocated]
  exact ⟨rfl, rfl, hfound⟩

theorem located_regs (m : Machine κ) : m.located.1.regs = m.cpu.regs := by
  rw [m.located_spec.1]

/-- What an instruction does once it has found its operand. -/
def acting (m : Machine κ) : Program Nat :=
  (Program.perform m.action).bind fun extra => .done (m.encoding.cycles + extra)

theorem execute_eq (h : Program.allowed m.cpu.undocumented (Program.opcodeAt m) = true) :
    Program.execute m.cpu.undocumented (Program.opcodeAt m) =
      .note (fun c => .executing c (Program.opcodeAt m))
        ((Program.resolve m.encoding.mode).bind fun _ => m.acting) := by
  rw [Program.execute, Program.allow, if_pos h]
  rfl

theorem instruction_located
    (h : Program.allowed m.cpu.undocumented (Program.opcodeAt m) = true) :
    (Program.instruction m.cpu.undocumented).exec m.cpu.toCore m.bus =
        m.acting.exec m.located.1 m.located.2 ∧
      (Program.instruction m.cpu.undocumented).trace m.cpu.toCore m.bus =
        .read .code m.cpu.pc :: (m.lookups ++ m.acting.trace m.located.1 m.located.2) := by
  obtain ⟨o, hexec, htrace, -⟩ := Program.resolve_exec m.encoding.mode
    (c := { m.cpu.toCore with pc := m.cpu.pc + 1 }) rfl (m.bus.read m.cpu.pc).2
  have hlocated : m.located = _ := congrArg (·.2) hexec
  constructor
  · show (Program.execute m.cpu.undocumented (Program.opcodeAt m)).exec
      { m.cpu.toCore with pc := m.cpu.pc + 1 } (m.bus.read m.cpu.pc).2 = _
    rw [execute_eq h, Program.exec, Program.exec_bind, hexec, hlocated]
  · show Access.read .code m.cpu.pc ::
      (Program.execute m.cpu.undocumented (Program.opcodeAt m)).trace
        { m.cpu.toCore with pc := m.cpu.pc + 1 } (m.bus.read m.cpu.pc).2 = _
    rw [execute_eq h, Program.trace, Program.trace_bind, hexec, htrace, hlocated]
    rfl

/-- The step from `m` to `m'` carried out the instruction in hand. -/
structure CarriedOut (m m' : Machine κ) : Prop where
  /-- the action was done on what the instruction had located -/
  performed : ∃ extra b, (Program.perform m.action).exec m.located.1 m.located.2 =
    (some extra, m'.cpu.toCore, b) ∧ m'.bus = b.takeStall.2
  /-- the operand was found, and then the action done -/
  accesses : m.accesses = .read .code m.cpu.pc ::
    (m.lookups ++ (Program.perform m.action).trace m.located.1 m.located.2)

theorem acting_exec (m : Machine κ) (c : Core) (b : Bus κ) :
    m.acting.exec c b =
      ((((Program.perform m.action).exec c b).1.map (m.encoding.cycles + ·)),
        ((Program.perform m.action).exec c b).2) := by
  rw [acting, Program.exec_bind]
  rcases (Program.perform m.action).exec c b with ⟨_ | extra, c', b'⟩ <;> rfl

theorem acting_trace (m : Machine κ) (c : Core) (b : Bus κ) :
    m.acting.trace c b = (Program.perform m.action).trace c b := by
  rw [acting, Program.trace_bind]
  rcases (Program.perform m.action).exec c b with ⟨_ | extra, c', b'⟩ <;>
    exact List.append_nil _

/-- A step that ran with no interrupt due has carried out its instruction. -/
theorem carriedOut_of_ran {n : Nat} (hdue : m.nmiDue = false) (hs : m.step = (.ran n, m')) :
    m.CarriedOut m' := by
  have hh := (ran_of_step hs).not_halted
  obtain ⟨haccesses, j, hj⟩ := (step_eq_exec hh).resolve_left (by rw [hs]; simp)
  rw [program_of_not_due hdue, takeNmi_of_not_due hdue] at haccesses hj
  cases hallowed : Program.allowed m.cpu.undocumented (Program.opcodeAt m) with
  | false =>
    have hnone : (Program.instruction m.cpu.undocumented).exec m.cpu.toCore m.bus =
        (none, _, _) := Program.execute_of_not_allowed hallowed _ (m.bus.read m.cpu.pc).2
    rw [hnone] at hj
    cases hs.symm.trans hj
  | true =>
    obtain ⟨hexec, htrace⟩ := instruction_located hallowed
    rw [hexec, acting_exec] at hj
    rw [htrace, acting_trace] at haccesses
    refine ⟨?_, haccesses⟩
    rcases hperform : (Program.perform m.action).exec m.located.1 m.located.2 with
      ⟨_ | extra, c, b⟩ <;> rw [hperform] at hj
    · cases hs.symm.trans hj
    · cases hs.symm.trans hj
      exact ⟨extra, b, rfl, rfl⟩

/-- An instruction that need not wait and may run is carried out, unless it stops the processor. -/
theorem exists_ran (hh : m.cpu.halted = false) (hdue : m.nmiDue = false)
    (hwait : m.step.1 ≠ .waits)
    (hallowed : Program.allowed m.cpu.undocumented (Program.opcodeAt m) = true)
    (hjam : m.action ≠ .jam) : ∃ n m', m.step = (.ran n, m') := by
  obtain ⟨-, j, hj⟩ := (step_eq_exec hh).resolve_left hwait
  rw [program_of_not_due hdue, takeNmi_of_not_due hdue, (instruction_located hallowed).1,
    acting_exec] at hj
  obtain ⟨⟨extra, hextra⟩, -⟩ := (Program.perform_ends hjam).exec (c := m.located.1)
    (b := m.located.2)
  rw [hextra] at hj
  exact ⟨_, _, hj⟩

/-! ### What the opcodes do with their operands -/

/-- An instruction goes elsewhere than behind its bytes. -/
def Diverts (p : Status) (mnemonic : Mnemonic) : Prop :=
  mnemonic ∈ [.jmp, .jsr, .rts, .rti] ∨ mnemonic = .brk ∧ p.interruptDisable = false ∨
    condition p mnemonic = some true

theorem diverts_iff (p : Status) (mnemonic : Mnemonic) (mode : Mode) :
    (mnemonic.action mode).diverts p = true ↔ Diverts p mnemonic := by
  cases mnemonic with
  | brk => simp [Mnemonic.action, Action.diverts, Diverts, condition]
  | _ =>
    simp [Mnemonic.action, Action.plainStore, Action.flags, Action.diverts, Diverts, condition]

theorem action_of_condition {p : Status} {mnemonic : Mnemonic} (mode : Mode)
    (h : condition p mnemonic = some true) :
    ∃ taken, mnemonic.action mode = .branch taken ∧ taken p = true := by
  cases mnemonic <;> first | exact ⟨_, rfl, by simpa [condition] using h⟩ | cases h

theorem action_of_jmp (h : m.encoding.mnemonic = .jmp) : m.action = .jump := by
  rw [action, h]
  rfl

theorem action_of_branches {mnemonic : Mnemonic} (mode : Mode) (h : mnemonic ∈ branches) :
    ∃ taken, mnemonic.action mode = .branch taken := by
  cases mnemonic <;> first | exact ⟨_, rfl⟩ | exact absurd h (by decide)

/-- The opcodes with an operand in memory work on it, or go there. -/
theorem encoding_families (opcode : UInt8) :
    let e := Encoding.decode opcode
    e.mode.addressesMemory = true → e.mnemonic ≠ .jsr →
      (e.mnemonic.action e.mode).meetsOperand = true ∨ e.mnemonic = .jmp ∨
        e.mnemonic ∈ branches ∧ e.mode = .relative := by
  revert opcode
  decide +kernel

theorem addressesMemory_iff :
    m.encoding.mode.addressesMemory = true ↔ ∃ a, a ∈ m.operandAt := by
  rw [← isSome_operandAddress (m.bus.read m.cpu.pc).2 m.cpu.pc m.cpu.regs]
  exact Option.isSome_iff_exists

/-- Where an instruction that was carried out had its operand, and where it went on. -/
structure Resolved (m m' : Machine κ) : Prop where
  mode : m'.cpu.operand.mode = m.encoding.mode
  address : ∀ a ∈ m.operandAt, m'.cpu.operand.address.toNat = a
  /-- what is accessed when the operand has been found is the operand -/
  accesses : ∃ rest, m.accesses = .read .code m.cpu.pc :: (m.lookups ++ rest) ∧
    ∀ a ∈ m.operandAt, m.encoding.mnemonic ≠ .jsr →
      (∀ x ∈ rest, x.address.toNat = a) ∧
        (m.encoding.mnemonic ≠ .jmp → m.encoding.mode ≠ .relative → rest ≠ [])
  /-- jumps and taken branches go to their operand -/
  target : ∀ a ∈ m.operandAt,
    m.encoding.mnemonic = .jmp ∨ condition m.cpu.regs.p m.encoding.mnemonic = some true →
      m'.cpu.pc.toNat = a
  next : ¬ Diverts m.cpu.regs.p m.encoding.mnemonic →
    m'.cpu.pc.toNat = (m.cpu.pc.toNat + 1 + m.encoding.mode.operandBytes) % 0x10000

theorem CarriedOut.operand (h : m.CarriedOut m') : m'.cpu.operand = m.located.1.operand := by
  obtain ⟨extra, b, hperform, -⟩ := h.performed
  have hkeeps := (Program.perform_keeping (f := Core.operand) (fun _ _ => rfl) m.action
    m.located.1 fun _ _ _ => rfl).exec_keeps m.located.2
  rwa [hperform] at hkeeps

theorem CarriedOut.pc (h : m.CarriedOut m')
    (hd : ¬ Diverts m.cpu.regs.p m.encoding.mnemonic) :
    m'.cpu.pc = m.cpu.pc + 1 + .ofNat m.encoding.mode.operandBytes := by
  obtain ⟨extra, b, hperform, -⟩ := h.performed
  have hkeeps := (Program.perform_keeping (f := Core.pc) (fun _ _ => rfl) m.action m.located.1
    fun hdiverts => absurd ((diverts_iff _ _ _).mp (m.located_regs ▸ hdiverts)) hd).exec_keeps
      m.located.2
  rw [hperform] at hkeeps
  exact hkeeps.trans (by rw [m.located_spec.1])

theorem CarriedOut.pc_of_jump (h : m.CarriedOut m')
    (hj : m.encoding.mnemonic = .jmp ∨ condition m.cpu.regs.p m.encoding.mnemonic = some true) :
    m'.cpu.pc = m.located.1.operand.address := by
  obtain ⟨extra, b, hperform, -⟩ := h.performed
  rcases hj with hjmp | htaken
  · rw [action_of_jmp hjmp] at hperform
    exact (congrArg (·.2.1.pc) hperform).symm
  · obtain ⟨taken, haction, hp⟩ := action_of_condition m.encoding.mode htaken
    have hexec : (Program.perform (.branch taken)).exec m.located.1 m.located.2 =
        (some (1 + Program.pageCycle m.located.1.operand),
          { m.located.1 with pc := m.located.1.operand.address }, m.located.2) := by
      show (if taken m.located.1.regs.p then
          (Program.goto m.located.1.operand.address).bind fun _ =>
            .done (1 + Program.pageCycle m.located.1.operand)
        else .done 0 : Program Nat).exec _ _ = _
      rw [m.located_regs, if_pos hp]
      rfl
    rw [show m.action = .branch taken from haction, hexec] at hperform
    exact (congrArg (·.2.1.pc) hperform).symm

theorem perform_trace_located (m : Machine κ) {a : Nat} (ha : a ∈ m.operandAt)
    (hjsr : m.encoding.mnemonic ≠ .jsr) :
    (∀ x ∈ (Program.perform m.action).trace m.located.1 m.located.2, x.address.toNat = a) ∧
      (m.encoding.mnemonic ≠ .jmp → m.encoding.mode ≠ .relative →
        (Program.perform m.action).trace m.located.1 m.located.2 ≠ []) := by
  obtain ⟨-, -, hmode, haddress, -⟩ := m.located_spec
  have hmemory := addressesMemory_iff.mpr ⟨a, ha⟩
  rcases encoding_families (Program.opcodeAt m) hmemory hjsr with hmeets | hjmp | ⟨hbranch, hrel⟩
  · obtain ⟨hne, hall⟩ := Program.perform_trace (c := m.located.1) (by rw [hmode]; exact hmemory)
      hmeets m.located.2
    exact ⟨fun x hx => (congrArg _ (hall x hx)).trans (haddress a ha), fun _ _ => hne⟩
  · rw [action_of_jmp hjmp]
    exact ⟨nofun, fun h => absurd hjmp h⟩
  · obtain ⟨taken, haction⟩ := action_of_branches m.encoding.mode hbranch
    have hnone : (Program.perform (.branch taken)).trace m.located.1 m.located.2 = [] := by
      show (if taken m.located.1.regs.p then
          (Program.goto m.located.1.operand.address).bind fun _ =>
            .done (1 + Program.pageCycle m.located.1.operand)
        else .done 0 : Program Nat).trace _ _ = _
      split <;> rfl
    rw [show m.action = .branch taken from haction, hnone]
    exact ⟨nofun, fun _ h => absurd hrel h⟩

/-- **Operands are found as their modes say, and the program counter goes past the bytes.** -/
theorem step_resolved {n : Nat} (hdue : m.nmiDue = false) (hs : m.step = (.ran n, m')) :
    m.Resolved m' := by
  have h := carriedOut_of_ran hdue hs
  obtain ⟨-, -, hmode, haddress, -⟩ := m.located_spec
  refine ⟨?_, fun a ha => ?_, ⟨_, h.accesses, fun a ha => m.perform_trace_located ha⟩,
    fun a ha hj => ?_, fun hd => ?_⟩
  · rw [h.operand, hmode]
  · rw [h.operand, haddress a ha]
  · rw [h.pc_of_jump hj, haddress a ha]
  · rw [h.pc hd, UInt16.toNat_add, UInt16.toNat_add, UInt16.toNat_ofNat', UInt16.toNat_one]
    show (_ + _) % 65536 = _
    omega

/-- Memory with zeros in it, but for some cells. -/
def memoryWith (cells : List (Nat × UInt8)) : Vector UInt8 0x800 :=
  cells.foldl (fun ram cell => if h : cell.1 < 0x800 then ram.set cell.1 cell.2 h else ram)
    (.replicate _ 0)

/-- A machine about to load through a pointer, with its opcode in the last byte of memory and the
byte after it in the first register of the picture unit, which reads as zero.  The index moves the
pointer to the end of page zero. -/
def straddling : Machine Board where
  cpu := { regs := { x := 0xFF }, pc := 0x1FFF }
  bus := { Bus.plug Board.blank with
    ram := memoryWith [(0x7FF, 0xA1), (0xFF, 0x10), (0, 0x02)] }

/-- The pointer wraps around in page zero, and the program counter goes on among the registers. -/
theorem straddling_resolved :
    straddling.operandAt = some 0x0210 ∧ straddling.step.2.cpu.operand.address = 0x0210 ∧
      straddling.step.2.cpu.pc = 0x2001 := by
  have hran : straddling.step.1 = .ran 6 := by decide +kernel
  have hat : straddling.operandAt = some 0x0210 := by decide +kernel
  have hlda : straddling.encoding = ⟨.lda, .indexedIndirect, 6, true⟩ := by decide +kernel
  have hstep (m : Machine Board) (h : m.step.1 = .ran 6) : m.step = (.ran 6, m.step.2) :=
    Prod.ext h rfl
  have h := step_resolved (by decide +kernel) (hstep straddling hran)
  have hgoesOn : ¬ Diverts straddling.cpu.regs.p straddling.encoding.mnemonic := by
    rw [hlda]
    simp [Diverts, condition]
  refine ⟨hat, UInt16.toNat_inj.mp (h.address _ hat), UInt16.toNat_inj.mp ?_⟩
  rw [h.next hgoesOn, hlda]
  rfl

end Machine

end Famicom
