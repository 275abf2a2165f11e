import Famicom.Proofs.Machine.Program

/-!
# Laws of steps

What a step of a machine that has not halted runs is its `program`, and the step waits exactly if
the run does (`step_waits_iff`).  A step that does not wait does what `exec` says (`step_eq_exec`);
one that need not wait does not (`step_ne_waits`).  No step reads the journal (`step_journal`).
-/

namespace Famicom.Machine

open Processor

variable {κ : Type} {m m' : Machine κ}

/-! ### Interrupts -/

@[simp] theorem takeNmi_cpu (m : Machine κ) : m.takeNmi.cpu = m.cpu := by
  unfold takeNmi
  split <;> rfl

theorem takeNmi_of_not_due (h : m.nmiDue = false) : m.takeNmi = m := by simp [takeNmi, h]

theorem program_of_due (h : m.nmiDue = true) : m.program = interrupt Cpu.nmiVector := by
  simp [program, h]

theorem program_of_not_due (h : m.nmiDue = false) :
    m.program = .instruction m.cpu.undocumented := by
  simp [program, h]

theorem not_nmiDue_of_retrying (h : m.cpu.sync.retrying = true) : m.nmiDue = false := by
  simp [nmiDue, h]

/-! ### Steps -/

theorem finish_waits_iff {start : UInt16} {r : EStateM.Result Trap (Machine κ) Nat} :
    finish start r = (.waits, m') ↔ ∃ w, r = .error .wait w ∧ (w.takeBack start).2 = m' := by
  cases r with
  | ok cycles w => simp [finish, settle]
  | error t w => cases t <;> simp [finish, takeBack, halt, eq_comm]

variable [Cartridge κ]

theorem step_of_halted (h : m.cpu.halted = true) : m.step = (.halted m.cpu.pc, m) := by
  simp [step, h]

theorem step_of_not_halted (h : m.cpu.halted = false) :
    m.step = finish m.cpu.pc (m.program.run m.takeNmi) := by
  simp [step, h]

theorem accesses_of_not_halted (h : m.cpu.halted = false) :
    m.accesses = m.program.accesses m.takeNmi := by
  simp [accesses, h]

theorem step_waits_iff :
    m.step = (.waits, m') ↔ m.cpu.halted = false ∧
      ∃ w, m.program.run m.takeNmi = .error .wait w ∧ (w.takeBack m.cpu.pc).2 = m' := by
  cases h : m.cpu.halted with
  | true => simp [step_of_halted h]
  | false => rw [step_of_not_halted h, finish_waits_iff]; simp

theorem accesses_of_mustWait (h : m.cpu.sync.mustWait = true) :
    ∀ a ∈ m.accesses, isRegister a.address = false := by
  unfold accesses
  split
  · simp
  · exact m.program.accesses_of_mustWait (by simpa using h)

theorem step_ne_waits (h : m.cpu.sync.mustWait = false) : m.step.1 ≠ .waits := by
  intro hw
  obtain ⟨-, w, hrun, -⟩ := step_waits_iff.mp (Prod.ext hw rfl : m.step = (.waits, m.step.2))
  exact m.program.run_ne_wait (by simpa using h) w hrun

/-- **A step waits, or does what `exec` says.** -/
theorem step_eq_exec (h : m.cpu.halted = false) :
    m.step.1 = .waits ∨
      m.accesses = m.program.trace m.cpu.toCore m.takeNmi.bus ∧
        ∃ j, m.step = finish m.cpu.pc
          (Program.outcome m.takeNmi j (m.program.exec m.cpu.toCore m.takeNmi.bus)) := by
  rw [step_of_not_halted h, accesses_of_not_halted h, ← takeNmi_cpu m]
  rcases m.program.run_eq_exec m.takeNmi with ⟨w, hw⟩ | ⟨ha, j, hj⟩
  · exact .inl (by simp [hw, finish, takeBack])
  · exact .inr ⟨ha, j, by rw [hj]⟩

/-- Where no interrupt is due and nothing has to wait, a step does what `exec` says of its
instruction. -/
theorem step_of_not_due (hh : m.cpu.halted = false) (hdue : m.nmiDue = false)
    (hm : m.cpu.sync.mustWait = false) :
    m.accesses = (Program.instruction m.cpu.undocumented).trace m.cpu.toCore m.bus ∧
      ∃ j, m.step = finish m.cpu.pc (Program.outcome m j
        ((Program.instruction m.cpu.undocumented).exec m.cpu.toCore m.bus)) := by
  have h := (step_eq_exec hh).resolve_left (step_ne_waits hm)
  rwa [program_of_not_due hdue, takeNmi_of_not_due hdue] at h

/-! ### What a step has nothing to do with -/

omit [Cartridge κ] in
theorem finish_bus (start : UInt16) (r : EStateM.Result Trap (Machine κ) Nat) :
    (finish start r).2.bus = (Program.left r).bus ∨
      (finish start r).2.bus = (Program.left r).bus.takeStall.2 := by
  cases r with
  | ok cycles w => exact .inr rfl
  | error t w => cases t <;> exact .inl rfl

theorem step_lasting {P : Bus κ → Prop} (hP : Bus.Lasting P) (h : P m.bus) : P m.step.2.bus := by
  cases hh : m.cpu.halted with
  | true =>
    rw [step_of_halted hh]
    exact h
  | false =>
    have htake : P m.takeNmi.bus := by
      unfold takeNmi
      split
      · exact hP.setRegs _ h
      · exact h
    have hrun := m.program.run_lasting hP htake
    rw [step_of_not_halted hh]
    rcases finish_bus m.cpu.pc (m.program.run m.takeNmi) with heq | heq
    · rwa [heq]
    · rw [heq]
      exact hP.takeStall hrun

omit [Cartridge κ] in
theorem finish_journal (start : UInt16) (r : EStateM.Result Trap (Machine κ) Nat)
    (journal : Journal) :
    ∃ journal', finish start (Program.retell journal r) =
      ((finish start r).1, { (finish start r).2 with journal := journal' }) := by
  cases r with
  | ok cycles w => exact ⟨_, rfl⟩
  | error t w => cases t <;> exact ⟨_, rfl⟩

/-- A step does not read the journal. -/
theorem step_journal (m : Machine κ) (journal : Journal) :
    ∃ journal', step { m with journal } = (m.step.1, { m.step.2 with journal := journal' }) := by
  cases hh : m.cpu.halted with
  | true =>
    rw [step_of_halted hh, step_of_halted (m := { m with journal }) hh]
    exact ⟨journal, rfl⟩
  | false =>
    have htake : takeNmi { m with journal } = { m.takeNmi with journal } := by
      unfold takeNmi
      split <;> rename_i hdue
      · rw [if_pos (show m.nmiDue = true from hdue)]
      · rw [if_neg (show ¬ m.nmiDue = true from hdue)]
    rw [step_of_not_halted hh, step_of_not_halted (m := { m with journal }) hh, htake]
    obtain ⟨journal', hrun⟩ := m.program.run_journal m.takeNmi journal
    rw [show program { m with journal } = m.program from rfl, hrun]
    exact finish_journal _ _ journal'

theorem burst_journal (m : Machine κ) (budget : Nat) (journal : Journal) :
    ∃ journal', burst { m with journal } budget =
      ((m.burst budget).1, { (m.burst budget).2 with journal := journal' }) :=
  walk_apart step_journal budget 0 m journal

end Famicom.Machine
