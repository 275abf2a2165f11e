import Famicom.Proofs.Machine.Rollback

/-!
# Running an instruction again

An instruction that was taken back runs again from its start. The processor is as it was before the
attempt but for the operand, and of that the attempt leaves nothing that the addressing mode does
not find again (`Leftover`): the instruction does the same from what is left (`exec_of_waits`). So a
retry can differ from running once only through the bus, and where the bus makes no difference to
the instruction it does not (`retry_same`).
-/

namespace Famicom

open Processor

namespace Program

variable {κ : Type} [Cartridge κ] {m m' : Machine κ} {c : Core} {o : Operand} {opcode : UInt8}
  {undocumented : Bool}

/-! ### What an attempt has found out about the operand does not matter -/

theorem resolve_exec_congr {mode : Mode} (h : mode.Keeps c.operand o) (b : Bus κ) :
    (resolve mode).exec { c with operand := o } b = (resolve mode).exec c b := by
  cases mode <;>
    simp_all [Mode.Keeps, Mode.addressesMemory, resolve, modifyOperand, modifyCore, core, fetch,
      fetchWord, readWordInPage, readPair, readByte, goto, bind, exec, Operand.setAddress,
      Operand.setIndexed, Operand.setRelative, Operand.setData]

theorem execute_exec_congr (ha : allowed undocumented opcode = true)
    (h : (Encoding.decode opcode).mode.Keeps c.operand o) (b : Bus κ) :
    (execute undocumented opcode).exec { c with operand := o } b =
      (execute undocumented opcode).exec c b := by
  simp only [execute, allow, ha, if_true, record, pure_eq, bind_eq, bind, exec, exec_bind]
  rw [resolve_exec_congr h]

/-- What an attempt may leave of the operand: nothing at all, or what the mode of the opcode finds
again. -/
def Leftover (undocumented : Bool) (opcode : UInt8) (o o' : Operand) : Prop :=
  o' = o ∨ allowed undocumented opcode = true ∧ (Encoding.decode opcode).mode.Keeps o o'

theorem instruction_exec_congr {b : Bus κ}
    (h : Leftover undocumented (b.read c.pc).1 c.operand o) :
    (instruction undocumented).exec { c with operand := o } b =
      (instruction undocumented).exec c b := by
  rcases h with rfl | ⟨ha, hk⟩
  · rfl
  · exact execute_exec_congr (c := { c with pc := c.pc + 1 }) ha hk _

/-- An instruction waits at its first byte, of which nothing is left, or after its opcode has been
found to be allowed. -/
theorem instruction_waits_cases (hm : m.cpu.sync.mustWait = true)
    (h : (instruction undocumented).run m = .error .wait m') :
    m' = m ∨ isRegister m.cpu.pc = false ∧ allowed undocumented (opcodeAt m) = true := by
  rw [instruction, bind_eq, run_bind] at h
  cases hw : Exec.mustWait m m.cpu.pc with
  | true =>
    rw [(fetch_refused hw).1] at h
    cases h
    exact .inl rfl
  | false =>
    rw [run_fetch hw] at h
    rw [Exec.mustWait_of_sync hm] at hw
    refine .inr ⟨hw, ?_⟩
    cases ha : allowed undocumented (opcodeAt m) with
    | true => rfl
    | false =>
      exfalso
      simp only [opcodeAt] at ha
      simp [execute, allow, ha, bind, run] at h

end Program

namespace Machine

variable {κ : Type} [Cartridge κ] {m m' : Machine κ}

/-- What a step that has to wait leaves of the operand fits the opcode, which need not be known
where already the first byte is a register. -/
theorem leftover_of_waits (h : m.step = (.waits, m'))
    (hop : isRegister m.cpu.pc = false → opcode = Program.opcodeAt m) :
    Program.Leftover m.cpu.undocumented opcode m.cpu.operand m'.cpu.operand := by
  obtain ⟨-, w, hrun, rfl⟩ := run_of_waits h
  have hm := mustWait_of_waits h
  rcases Program.instruction_waits_cases hm hrun with rfl | ⟨hpc, ha⟩
  · exact .inl rfl
  · rw [hop hpc]
    exact .inr ⟨ha, (Program.instruction_attempt hm hrun).operand⟩

/-- The instruction in hand does the same after it was taken back. -/
theorem exec_of_waits (h : m.step = (.waits, m')) {b : Bus κ}
    (hb : isRegister m.cpu.pc = false → (b.read m.cpu.pc).1 = Program.opcodeAt m) :
    (Program.instruction m.cpu.undocumented).exec m'.cpu.toCore b =
      (Program.instruction m.cpu.undocumented).exec m.cpu.toCore b := by
  rw [cpu_of_waits h]
  exact Program.instruction_exec_congr (leftover_of_waits h hb)

/-- Two steps come to the same: they go alike and leave the same bus and the same processor, but for
where it stands with the picture. -/
def SameOutcome (r r' : Progress × Machine κ) : Prop :=
  r.1 = r'.1 ∧ r.2.bus = r'.2.bus ∧ { r.2.cpu with sync := {} } = { r'.2.cpu with sync := {} }

/-- The machine with a picture that does not lag behind. -/
def inStep (m : Machine κ) : Machine κ := { m with cpu := m.cpu.setAwaiting false }

/-- The step after one that had to wait, on whatever has become of the bus, runs the instruction in
hand. -/
theorem step_after_waits (h : m.step = (.waits, m')) (b : Bus κ) (journal : Journal) :
    ∃ j, step ⟨m'.cpu, b, journal⟩ = finish m.cpu.pc (Program.outcome m' j
      ((Program.instruction m.cpu.undocumented).exec m'.cpu.toCore b)) := by
  have hcpu := cpu_of_waits h
  have hh : m'.cpu.halted = false := by rw [hcpu]; exact (step_waits_iff.mp h).1
  have hr : m'.cpu.sync = ⟨true, true⟩ := by rw [hcpu]
  have hpc : m'.cpu.pc = m.cpu.pc := by rw [hcpu]
  have hu : m'.cpu.undocumented = m.cpu.undocumented := by rw [hcpu]
  obtain ⟨-, j, hj⟩ := step_of_not_due (m := ⟨m'.cpu, b, journal⟩) hh
    (not_nmiDue_of_retrying (by simp [hr])) (by simp [hr, Sync.mustWait])
  exact ⟨j, by rw [hj, ← hpc, ← hu]; rfl⟩

theorem step_inStep (h : m.step = (.waits, m')) :
    ∃ j, m.inStep.step = finish m.cpu.pc (Program.outcome m.inStep j
      ((Program.instruction m.cpu.undocumented).exec m.cpu.toCore m.bus)) :=
  (step_of_not_due (m := m.inStep) (step_waits_iff.mp h).1
    (show m.nmiDue = false from not_nmiDue_of_waits h) rfl).2

omit [Cartridge κ] in
theorem finish_outcome_same (r : Option Nat × Core × Bus κ) (j j' : Journal)
    (h : { m.cpu with toCore := {}, sync := {} } = { m'.cpu with toCore := {}, sync := {} })
    (pc : UInt16) :
    SameOutcome (finish pc (Program.outcome m j r)) (finish pc (Program.outcome m' j' r)) := by
  obtain ⟨⟨_, _, _, _, _, _⟩, _, _⟩ := m
  obtain ⟨⟨_, _, _, _, _, _⟩, _, _⟩ := m'
  obtain ⟨_ | n, c, b⟩ := r <;>
    simp_all [SameOutcome, finish, Program.outcome, settle, halt, record]

omit [Cartridge κ] in
/-- Bringing a step to its end touches neither the registers nor the pads. -/
theorem finish_outcome_frame (r : Option Nat × Core × Bus κ) (j : Journal) (pc : UInt16) :
    (finish pc (Program.outcome m j r)).2.cpu.regs = r.2.1.regs ∧
      (finish pc (Program.outcome m j r)).2.bus.pads = r.2.2.pads := by
  obtain ⟨_ | n, c, b⟩ := r <;> exact ⟨rfl, rfl⟩

/-- Where the bus makes no difference to the instruction, running it again comes to the same. -/
theorem retry_same (h : m.step = (.waits, m'))
    (hb : isRegister m.cpu.pc = false → (m'.bus.read m.cpu.pc).1 = Program.opcodeAt m)
    (hexec : (Program.instruction m.cpu.undocumented).exec m.cpu.toCore m'.bus =
      (Program.instruction m.cpu.undocumented).exec m.cpu.toCore m.bus) :
    SameOutcome m'.step m.inStep.step := by
  obtain ⟨j, hj⟩ := step_after_waits h m'.bus m'.journal
  obtain ⟨j', hj'⟩ := step_inStep h
  rw [hj', ← hexec, ← exec_of_waits h hb, show m'.step = _ from hj]
  refine finish_outcome_same _ j j' ?_ _
  rw [cpu_of_waits h]
  rfl

end Machine

end Famicom
