import Famicom.Proofs.Bus.Apart
import Famicom.Proofs.Machine.Cost
import Famicom.Proofs.Machine.Retry

/-!
# Programs apart from the picture

What a program does whose accesses are all apart from the picture can be done before a piece of the
picture is drawn as well as after it: the program neither sees the registers of the unit nor changes
them (`exec_setRegs`), and it leaves what is drawn from (`exec_showsSame`).
-/

namespace Famicom

open Picture Processor

/-- An access that has nothing to do with the picture. -/
def Access.Apart : Access → Prop
  | .read _ address => isRegister address = false
  | .write address _ => isRegister address = false ∧ address ≠ 0x4014

namespace Program

variable {α κ : Type} [Cartridge κ] {p : Program α} {c : Core} {b : Bus κ}

/-- A program apart from the picture does not see the registers of the picture unit. -/
theorem exec_setRegs (h : ∀ a ∈ p.trace c b, a.Apart) (r : Picture.Registers) :
    p.exec c (b.setRegs r) =
      ((p.exec c b).1, (p.exec c b).2.1, (p.exec c b).2.2.setRegs r) := by
  induction p generalizing c b with
  | done a => rfl
  | jam => rfl
  | look next ih => exact ih c h
  | change f next ih => exact ih h
  | note event next ih => exact ih h
  | read purpose address next ih =>
    obtain ⟨ha, hnext⟩ := List.forall_mem_cons.mp h
    rw [exec, Bus.read_setRegs ha]
    exact ih _ hnext
  | write address byte next ih =>
    obtain ⟨⟨ha, ht⟩, hnext⟩ := List.forall_mem_cons.mp h
    rw [exec, Bus.write_setRegs ha ht]
    exact ih hnext

variable [Cartridge.Steady κ]

/-- A program apart from the picture leaves what is drawn from. -/
theorem exec_showsSame (h : ∀ a ∈ p.trace c b, a.Apart) (hl : b.LaidOut) :
    b.ShowsSame (p.exec c b).2.2 := by
  induction p generalizing c b with
  | done a => exact .refl b
  | jam => exact .refl b
  | look next ih => exact ih c h hl
  | change f next ih => exact ih h hl
  | note event next ih => exact ih h hl
  | read purpose address next ih =>
    obtain ⟨ha, hnext⟩ := List.forall_mem_cons.mp h
    exact (Bus.read_showsSame ha b).trans (ih _ hnext (Bus.read_laidOut hl))
  | write address byte next ih =>
    obtain ⟨⟨ha, ht⟩, hnext⟩ := List.forall_mem_cons.mp h
    exact (Bus.write_showsSame ha ht hl).trans (ih hnext (Bus.write_laidOut hl))

end Program

namespace Machine

variable {κ : Type} {m m' : Machine κ}

theorem takeNmi_bus (m : Machine κ) :
    m.takeNmi.bus =
      m.bus.setRegs { m.bus.video.regs with
        nmiPending := !m.nmiDue && m.bus.video.regs.nmiPending } := by
  unfold takeNmi
  split <;> simp_all [Bus.setRegs, Video.takeNmi]

/-- The journal apart, bringing a step to its end looks at the result only. -/
theorem finish_outcome_bus (E : Option Nat × Core × Bus κ) (m : Machine κ) (j : Journal)
    (pc : UInt16) :
    ∃ stall, (finish pc (Program.outcome m j E)).2.bus = { E.2.2 with stall } := by
  obtain ⟨_ | n, c, b⟩ := E
  · exact ⟨b.stall, rfl⟩
  · exact ⟨0, rfl⟩

/-! ### The same step beside a picture that does not lag behind -/

theorem finish_outcome_ran {w v : Machine κ} {E : Option Nat × Core × Bus κ} {pc : UInt16}
    {j : Journal} {n : Nat} (h : finish pc (Program.outcome w j E) = (.ran n, m'))
    (hcpu : { v.cpu with toCore := {}, sync := {} } = { w.cpu with toCore := {}, sync := {} })
    (hv : v.cpu.sync.awaiting = false) (i : Journal) (r : Picture.Registers) :
    ∃ v', finish pc (Program.outcome v i (E.1, E.2.1, E.2.2.setRegs r)) = (.ran n, v') ∧
      v'.cpu = m'.cpu.setAwaiting false ∧ v'.bus = m'.bus.setRegs r := by
  obtain ⟨_ | k, c, b⟩ := E
  · cases h
  · cases h
    refine ⟨_, rfl, ?_, rfl⟩
    obtain ⟨⟨_, _, _, ⟨_, _⟩, _, _⟩, _, _⟩ := v
    obtain ⟨⟨_, _, _, ⟨_, _⟩, _, _⟩, _, _⟩ := w
    simp_all [Cpu.setAwaiting, Bus.setRegs]

theorem finish_outcome_ran_same {w v : Machine κ} {E : Option Nat × Core × Bus κ} {pc : UInt16}
    {j : Journal} {n : Nat} (h : finish pc (Program.outcome w j E) = (.ran n, m'))
    (hcpu : { v.cpu with toCore := {}, sync := {} } = { w.cpu with toCore := {}, sync := {} })
    (hv : v.cpu.sync.awaiting = false) (i : Journal) :
    ∃ v', finish pc (Program.outcome v i E) = (.ran n, v') ∧
      v'.cpu = m'.cpu.setAwaiting false ∧ v'.bus = m'.bus := by
  obtain ⟨v', hran, hcpu', hbus'⟩ := finish_outcome_ran h hcpu hv i E.2.2.video.regs
  obtain ⟨stall, hstall⟩ := finish_outcome_bus E w j pc
  refine ⟨v', hran, hcpu', hbus'.trans ?_⟩
  rw [show m'.bus = { E.2.2 with stall } by rw [← hstall, h]]
  rfl

theorem program_inStep {v : Machine κ} (hcpu : v.cpu = m.cpu.setAwaiting false)
    (hdue : v.nmiDue = m.nmiDue) : v.program = m.program := by
  unfold program
  rw [hdue, hcpu]
  rfl

variable [Cartridge κ]

/-- Beside a picture that does not lag behind the same program runs, from the same state of the
processor. -/
theorem step_of_inStep {v : Machine κ} (hh : m.cpu.halted = false)
    (hcpu : v.cpu = m.cpu.setAwaiting false) (hdue : v.nmiDue = m.nmiDue) :
    ∃ i, v.step = finish m.cpu.pc (Program.outcome v.takeNmi i
      (m.program.exec m.cpu.toCore v.takeNmi.bus)) := by
  have hne : v.step.1 ≠ .waits := step_ne_waits (by rw [hcpu]; rfl)
  obtain ⟨i, hi⟩ := step_of_ne_waits (m := v) (by rw [hcpu]; exact hh) hne
  refine ⟨i, ?_⟩
  rw [hi, program_inStep hcpu hdue, show v.cpu.toCore = m.cpu.toCore by rw [hcpu]; rfl]

/-- On the same bus a step runs there as well. -/
theorem ran_inStep {v : Machine κ} {n : Nat} (hs : m.step = (.ran n, m'))
    (hcpu : v.cpu = m.cpu.setAwaiting false) (hbus : v.bus = m.bus) :
    ∃ v', v.step = (.ran n, v') ∧ v'.cpu = m'.cpu.setAwaiting false ∧ v'.bus = m'.bus := by
  have hdue : v.nmiDue = m.nmiDue := by
    unfold nmiDue
    rw [hcpu, hbus]
    rfl
  have hh := (ran_of_step hs).not_halted
  obtain ⟨j, hj⟩ := step_of_ne_waits hh (by rw [hs]; simp)
  obtain ⟨i, hi⟩ := step_of_inStep hh hcpu hdue
  rw [show v.takeNmi.bus = m.takeNmi.bus by rw [takeNmi_bus, takeNmi_bus, hbus, hdue]] at hi
  rw [hi]
  exact finish_outcome_ran_same (hj ▸ hs) (by simp [hcpu, Cpu.setAwaiting])
    (by simp [hcpu, Cpu.setAwaiting]) i

/-- A step apart from the picture does, whatever else the registers of the picture unit hold. -/
theorem ran_setRegs {v : Machine κ} {n : Nat} {r : Picture.Registers} (hs : m.step = (.ran n, m'))
    (ha : ∀ a ∈ m.accesses, a.Apart) (hcpu : v.cpu = m.cpu.setAwaiting false)
    (hbus : v.bus = m.bus.setRegs r) (hr : r.nmiPending = m.bus.video.regs.nmiPending) :
    ∃ v', v.step = (.ran n, v') ∧ v'.cpu = m'.cpu.setAwaiting false ∧
      v'.bus = m'.bus.setRegs { r with nmiPending := !m.nmiDue && r.nmiPending } := by
  have hdue : v.nmiDue = m.nmiDue := by
    unfold nmiDue
    rw [hcpu, hbus, ← hr]
    rfl
  have htake : v.takeNmi.bus =
      m.takeNmi.bus.setRegs { r with nmiPending := !m.nmiDue && r.nmiPending } := by
    rw [takeNmi_bus, takeNmi_bus, hbus, hdue]
    rfl
  have hh := (ran_of_step hs).not_halted
  obtain ⟨hacc, j, hj⟩ := (step_eq_exec hh).resolve_left (by rw [hs]; simp)
  obtain ⟨i, hi⟩ := step_of_inStep hh hcpu hdue
  rw [htake, Program.exec_setRegs (hacc ▸ ha)] at hi
  rw [hi]
  exact finish_outcome_ran (hj ▸ hs) (by simp [hcpu, Cpu.setAwaiting])
    (by simp [hcpu, Cpu.setAwaiting]) i _

/-- So does the instruction that had to wait, where the picture has been brought up to date. -/
theorem ran_of_waits {v w : Machine κ} {n : Nat} {b : Bus κ} {j : Journal}
    (hs : m.step = (.waits, m')) (hw : step ⟨m'.cpu, b, j⟩ = (.ran n, w))
    (hb : isRegister m.cpu.pc = false → (b.read m.cpu.pc).1 = Program.opcodeAt m)
    (hr : b.video.regs.nmiPending = m.bus.video.regs.nmiPending)
    (hcpu : v.cpu = m.cpu.setAwaiting false) (hbus : v.bus = b) :
    ∃ v', v.step = (.ran n, v') ∧ v'.cpu = w.cpu.setAwaiting false ∧ v'.bus = w.bus := by
  have hh := (step_waits_iff.mp hs).1
  have hdue := not_nmiDue_of_waits hs
  have hvdue : v.nmiDue = m.nmiDue := by
    unfold nmiDue
    rw [hcpu, hbus, hr]
    rfl
  obtain ⟨i, hi⟩ := step_of_inStep hh hcpu hvdue
  obtain ⟨j', hj'⟩ := step_after_waits hs b j
  rw [program_of_not_due hdue, takeNmi_of_not_due (hvdue.trans hdue), hbus,
    ← exec_of_waits hs hb] at hi
  rw [hi]
  refine finish_outcome_ran_same (hj' ▸ hw) ?_ (by rw [hcpu]; rfl) i
  rw [hcpu, cpu_of_waits hs]
  rfl

/-- Every step leaves the layout of the nametables with the cartridge. -/
theorem step_laidOut [Cartridge.Overt κ] (h : m.bus.LaidOut) : m.step.2.bus.LaidOut :=
  step_lasting Bus.lasting_laidOut h

variable [Cartridge.Steady κ]

/-- What is drawn after a step apart from the picture is what would have been drawn before, once the
interrupt is taken that was due. -/
theorem ran_showsSame {n : Nat} (hs : m.step = (.ran n, m')) (ha : ∀ a ∈ m.accesses, a.Apart)
    (hl : m.bus.LaidOut) : m.takeNmi.bus.ShowsSame m'.bus := by
  obtain ⟨hacc, j, hj⟩ := (step_eq_exec (ran_of_step hs).not_halted).resolve_left (by rw [hs]; simp)
  obtain ⟨stall, hstall⟩ := finish_outcome_bus
    (m.program.exec m.cpu.toCore m.takeNmi.bus) m.takeNmi j m.cpu.pc
  have hnmi : m.takeNmi.bus.LaidOut := by
    rw [takeNmi_bus]
    exact hl
  have hshows := Program.exec_showsSame (hacc ▸ ha) hnmi
  rw [show m'.bus = _ from (congrArg (fun s => s.2.bus) (hs.symm.trans hj)).trans hstall]
  exact ⟨hshows.video, hshows.patterns⟩

end Machine

end Famicom
