import Famicom.Proofs.Machine.Returns

/-!
# Where the processor stops

Twelve opcodes stop the processor, and so does every undocumented one where those may not run
(`StopsAt`).  Nothing else does (`step_halts_iff`).  A processor that stops stands at the opcode
with its registers and counters as they were; only the opcode has been read (`Still`).  From then on
its steps do nothing (`step_again`).
-/

namespace Famicom

open Processor

variable {κ : Type} [Cartridge κ]

/-! ### The opcodes -/

namespace Processor

/-- The opcodes that stop the processor, whether or not undocumented ones may run. -/
def jams : List UInt8 :=
  [0x02, 0x12, 0x22, 0x32, 0x42, 0x52, 0x62, 0x72, 0x92, 0xB2, 0xD2, 0xF2]

/-- The undocumented opcodes that stand among documented ones: they do nothing, but for two that
store. -/
def strays : List UInt8 :=
  [0x04, 0x0C, 0x14, 0x1A, 0x1C, 0x34, 0x3A, 0x3C, 0x44, 0x54, 0x5A, 0x5C, 0x64, 0x74, 0x7A, 0x7C,
    0x80, 0x82, 0x89, 0x9C, 0x9E, 0xC2, 0xD4, 0xDA, 0xDC, 0xE2, 0xF4, 0xFA, 0xFC]

/-- An opcode stops the processor; `undocumented` says whether undocumented ones may run. -/
def StopsAt (undocumented : Bool) (opcode : UInt8) : Prop :=
  opcode ∈ jams ∨ undocumented = false ∧ (opcode &&& 3 = 3 ∨ opcode ∈ strays)

instance (undocumented : Bool) (opcode : UInt8) : Decidable (StopsAt undocumented opcode) :=
  inferInstanceAs (Decidable (_ ∨ _))

theorem decode_jam (opcode : UInt8) :
    (Encoding.decode opcode).mnemonic = .jam ↔ opcode ∈ jams := by
  revert opcode
  decide +kernel

/-- The places of the matrix that stop the processor have no operand. -/
theorem mode_of_jam (opcode : UInt8) :
    (Encoding.decode opcode).mnemonic = .jam → (Encoding.decode opcode).mode = .implied := by
  revert opcode
  decide +kernel

theorem decode_documented (opcode : UInt8) :
    (Encoding.decode opcode).documented = false ↔
      opcode ∈ jams ∨ opcode &&& 3 = 3 ∨ opcode ∈ strays := by
  revert opcode
  decide +kernel

theorem Mnemonic.action_eq_jam {mnemonic : Mnemonic} {mode : Mode} :
    mnemonic.action mode = .jam ↔ mnemonic = .jam := by
  cases mnemonic <;> simp [action, Action.plainStore, Action.flags]

end Processor

namespace Machine

variable {m m' : Machine κ}

theorem action_eq_jam : m.action = .jam ↔ Program.opcodeAt m ∈ jams :=
  Mnemonic.action_eq_jam.trans (decode_jam _)

/-- What stops the processor may not run, or is a jam. -/
theorem stopsAt_iff :
    StopsAt m.cpu.undocumented (Program.opcodeAt m) ↔
      Program.allowed m.cpu.undocumented (Program.opcodeAt m) = false ∨ m.action = .jam := by
  rw [action_eq_jam, Program.allowed, Bool.or_eq_false_iff, decode_documented, StopsAt]
  grind

/-! ### Stopping -/

/-- From `m` to `m'` the processor has stopped: nothing else has changed but what reading the opcode
does, and what is known of the operand. -/
structure Still (m m' : Machine κ) : Prop where
  cpu : m'.cpu = { m.cpu with operand := m'.cpu.operand, halted := true }
  bus : m'.bus = (m.bus.read m.cpu.pc).2

theorem Still.onlyRead (h : Still m m') : m.bus.OnlyRead m'.bus := by
  rw [h.bus]
  exact .read _ _

theorem Still.memory (h : Still m m') : m'.bus.ram = m.bus.ram := h.onlyRead.ram

theorem Still.cartridge (h : Still m m') : m'.bus.cartridge = m.bus.cartridge := by
  rw [h.onlyRead.eq]

/-- What may run and stops the processor is a jam, and has no operand. -/
theorem jam_of_stopsAt (h : StopsAt m.cpu.undocumented (Program.opcodeAt m))
    (hallowed : Program.allowed m.cpu.undocumented (Program.opcodeAt m) = true) :
    m.action = .jam ∧ m.encoding.mode = .implied := by
  have hjam := (stopsAt_iff.mp h).resolve_left (by rw [hallowed]; nofun)
  exact ⟨hjam, mode_of_jam _ (Mnemonic.action_eq_jam.mp hjam)⟩

theorem instruction_of_stopsAt (h : StopsAt m.cpu.undocumented (Program.opcodeAt m)) :
    ∃ o, (Program.instruction m.cpu.undocumented).exec m.cpu.toCore m.bus =
      (none, { m.cpu.toCore with pc := m.cpu.pc + 1, operand := o }, (m.bus.read m.cpu.pc).2) := by
  cases hallowed : Program.allowed m.cpu.undocumented (Program.opcodeAt m) with
  | false => exact ⟨_, Program.execute_of_not_allowed hallowed _ (m.bus.read m.cpu.pc).2⟩
  | true =>
    obtain ⟨hjam, hmode⟩ := jam_of_stopsAt h hallowed
    have hpc : m.cpu.pc + 1 + .ofNat Mode.implied.operandBytes = m.cpu.pc + 1 := UInt16.add_zero _
    obtain ⟨hcore, hbus, -⟩ := m.located_spec
    refine ⟨m.located.1.operand, ?_⟩
    rw [hmode, hpc] at hcore
    rw [lookups, hmode] at hbus
    rw [(instruction_located hallowed).1, acting_exec, hjam, hbus, ← hcore]
    rfl

/-- What stops the processor does not wait once its opcode has been read. -/
theorem step_ne_waits_of_stopsAt (hfetch : Exec.mustWait m m.cpu.pc = false)
    (h : StopsAt m.cpu.undocumented (Program.opcodeAt m)) : m.step.1 ≠ .waits := by
  refine step_ne_waits_of_aside hfetch ?_
  cases hallowed : Program.allowed m.cpu.undocumented (Program.opcodeAt m) with
  | false => simp [Program.execute, Program.allow, hallowed, Program.bind, Program.Obeys]
  | true =>
    obtain ⟨hjam, hmode⟩ := jam_of_stopsAt h hallowed
    rw [execute_eq hallowed, acting, hjam, hmode]
    exact ⟨trivial, trivial, trivial⟩

/-- **Where the processor stops**: at an opcode that it has read and that stops it. -/
theorem step_halts_iff (hh : m.cpu.halted = false) (hdue : m.nmiDue = false) :
    (∃ pc m', m.step = (.halted pc, m')) ↔
      Exec.mustWait m m.cpu.pc = false ∧ StopsAt m.cpu.undocumented (Program.opcodeAt m) := by
  constructor
  · rintro ⟨pc, m', hs⟩
    constructor
    · cases hfetch : Exec.mustWait m m.cpu.pc with
      | false => rfl
      | true =>
        rw [step_of_not_halted hh, program_of_not_due hdue, takeNmi_of_not_due hdue,
          Program.instruction, Program.bind_eq, Program.run_bind,
          (Program.fetch_refused hfetch).1] at hs
        cases hs
    · rw [stopsAt_iff]
      refine Classical.byContradiction fun h => ?_
      rw [not_or, Bool.not_eq_false] at h
      obtain ⟨n, m'', hran⟩ := exists_ran hh hdue (by simp [hs]) h.1 h.2
      cases hs.symm.trans hran
  · rintro ⟨hfetch, h⟩
    obtain ⟨j, hj⟩ := step_of_ne_waits hh (step_ne_waits_of_stopsAt hfetch h)
    obtain ⟨o, ho⟩ := instruction_of_stopsAt h
    rw [program_of_not_due hdue, takeNmi_of_not_due hdue, ho] at hj
    exact ⟨_, _, hj⟩

/-- An interrupt that is entered does not stop the processor. -/
theorem nmiDue_of_halts {pc : UInt16} (hh : m.cpu.halted = false) (hs : m.step = (.halted pc, m')) :
    m.nmiDue = false := by
  cases hdue : m.nmiDue with
  | false => rfl
  | true =>
    obtain ⟨j, hj⟩ := step_of_ne_waits hh (by simp [hs])
    rw [hs, program_of_due hdue, interrupt, Program.bind_eq, Program.exec_bind,
      Program.enterInterrupt_exec rfl rfl] at hj
    cases hj

theorem still_of_step {pc : UInt16} (hh : m.cpu.halted = false) (hs : m.step = (.halted pc, m')) :
    pc = m.cpu.pc ∧ Still m m' := by
  have hdue := nmiDue_of_halts hh hs
  obtain ⟨j, hj⟩ := step_of_ne_waits hh (by simp [hs])
  obtain ⟨o, ho⟩ := instruction_of_stopsAt ((step_halts_iff hh hdue).mp ⟨pc, m', hs⟩).2
  rw [hs, program_of_not_due hdue, takeNmi_of_not_due hdue, ho] at hj
  cases hj
  exact ⟨rfl, rfl, rfl⟩

/-- A processor that has stopped does not go on. -/
theorem step_again {pc : UInt16} (hs : m.step = (.halted pc, m')) : m'.step = (.halted pc, m') := by
  cases hh : m.cpu.halted with
  | true =>
    rw [step_of_halted hh] at hs
    cases hs
    exact step_of_halted hh
  | false =>
    obtain ⟨rfl, hstill⟩ := still_of_step hh hs
    rw [step_of_halted (by rw [hstill.cpu]), hstill.cpu]

end Machine

end Famicom
