import Famicom.Proofs.Console.Operations
import Mathlib.Data.List.Induction

/-!
# The report of a halt

A halt is noted twice: the processor stops, and the console keeps a report of it.  Every operation
leaves the two in agreement but one (`Agrees.perform`).  Taking up a machine that was put aside
brings back its processor, halted or not, and leaves the report as it is.  So a console in use
agrees with its processor all the time exactly if every machine is taken up while the console
reports what the processor of that machine shows (`agrees_iff`).
-/

namespace Famicom

open Picture

/-! ### Steps and walks -/

/-- The step stopped the processor, or found it stopped. -/
def Progress.halts : Progress → Bool
  | halted _ => true
  | _ => false

/-- The walk ended where the processor does not run any more. -/
def Outcome.halts : Outcome → Bool
  | halted _ => true
  | _ => false

/-- If steps tell truly whether they leave something stopped, walks do. -/
theorem walk_halts {σ : Type} {step : σ → Progress × σ} (stopped : σ → Bool)
    (hstep : ∀ s, stopped s = false → stopped (step s).2 = (step s).1.halts) (n busy : Nat) {s : σ}
    (h : stopped s = false) : stopped (walk step n busy s).2 = (walk step n busy s).1.halts := by
  induction n generalizing busy s with
  | zero => exact h
  | succ n ih =>
    cases busy with
    | succ busy => exact ih busy h
    | zero =>
      have hs := hstep s h
      rw [walk]
      split <;> rename_i heq <;> rw [heq] at hs
      · exact ih _ hs
      · exact hs
      · exact hs

variable {κ σ : Type} [Cartridge κ]

theorem Machine.step_halts (m : Machine κ) (h : m.cpu.halted = false) :
    m.step.2.cpu.halted = m.step.1.halts := by
  rcases hs : m.step with ⟨p, m'⟩
  cases p with
  | ran n => exact (ran_of_step hs).halted
  | waits =>
    rw [show (Progress.waits, m').2.cpu = _ from cpu_of_waits hs]
    exact h
  | halted pc => exact (stopped_of_step hs).halted

theorem Drawing.step_halts [PixelSink σ] (d : Drawing κ σ) (h : d.machine.cpu.halted = false) :
    d.step.2.machine.cpu.halted = d.step.1.halts := by
  by_cases hw : d.machine.step.1 = .waits
  · have hfirst := d.machine.step_halts h
    rw [hw] at hfirst
    rw [step_of_waits (Prod.ext hw rfl)]
    exact Machine.step_halts _ hfirst
  · rw [step_of_ne_waits hw]
    exact d.machine.step_halts h

namespace Console

variable {c : Console κ}

/-- The console reports a halt exactly if its processor has halted. -/
def Agrees (c : Console κ) : Prop := c.isHalted = c.machine.cpu.halted

instance (c : Console κ) : Decidable c.Agrees := inferInstanceAs (Decidable (_ = _))

/-! ### Operations -/

omit [Cartridge κ] in
theorem conclude_isHalted (hh : c.halt = none) (r : Outcome × Drawing κ σ) :
    (c.conclude r).2.1.isHalted = r.1.halts := by
  obtain ⟨outcome, d⟩ := r
  cases outcome with
  | halted pc => rfl
  | completed excess => exact congrArg Option.isSome hh
  | waits => exact congrArg Option.isSome hh

theorem frame_halts [PixelSink σ] (h : c.machine.cpu.halted = false) (sink : σ) :
    (c.frame sink).2.machine.cpu.halted = (c.frame sink).1.halts := by
  have hrender : (c.rendering sink).2.machine.cpu.halted = (c.rendering sink).1.halts :=
    walk_halts (fun d : Drawing κ σ => d.machine.cpu.halted) Drawing.step_halts _ 0 h
  have hrest (d : Drawing κ σ) (hd : d.machine.cpu.halted = false) :
      (c.resting d).2.machine.cpu.halted = (c.resting d).1.halts :=
    walk_halts (fun m : Machine κ => m.cpu.halted) Machine.step_halts _ 0 hd
  rw [frame]
  rcases hd : c.rendering sink with ⟨excess | _ | pc, d⟩ <;> rw [hd] at hrender
  -- only a halt keeps the second phase from beginning, so it begins with the processor running
  · exact hrest d hrender
  · exact hrest d hrender
  · exact hrender

theorem Agrees.frame [PixelSink σ] (h : c.Agrees) (sink : σ) : (c.runFrame sink).2.1.Agrees := by
  cases hh : c.halt with
  | some halt =>
    rw [runFrame, hh]
    exact h
  | none =>
    have hrunning : c.machine.cpu.halted = false := by
      rw [← show c.isHalted = c.machine.cpu.halted from h, isHalted, hh]
      rfl
    rw [runFrame_of_not_halted hh, Agrees, conclude_isHalted hh, conclude_machine]
    exact (frame_halts hrunning sink).symm

/-- Every operation but one leaves them in agreement. -/
theorem Agrees.perform {op : Operation} (hop : op ≠ .restore) (h : c.Agrees) :
    (c.perform op).Agrees := by
  cases op with
  | frame sink => exact h.frame sink
  | reset => rfl
  | save => exact h
  | restore => exact absurd rfl hop
  | arm code =>
    obtain ⟨genie, journal, heq⟩ := c.perform_arm_eq code
    rw [heq]
    exact h
  | disarm =>
    obtain ⟨genie, journal, heq⟩ := c.perform_disarm_eq
    rw [heq]
    exact h
  | connect socket pad => exact h
  | disconnect socket => exact h

theorem snapshot_save (c : Console κ) : (c.perform .save).snapshot = some c.capture := rfl

theorem perform_restore_of_none (h : c.snapshot = none) : c.perform .restore = c := by
  rw [perform, restore, h]
  rfl

theorem perform_restore_agrees {s : Snapshot κ} (h : c.snapshot = some s) :
    (c.perform .restore).Agrees ↔ s.cpu.halted = c.isHalted := by
  rw [perform, restore, h]
  exact eq_comm

/-- **When the report of a halt can be trusted.** -/
theorem agrees_iff {cart : κ} {settings : Settings} {journal : Journal}
    (hbuild : build cart settings journal = .ok c) (ops : List Operation) :
    (∀ past, past <+: ops → (c.after past).Agrees) ↔
      ∀ past, past ++ [.restore] <+: ops → ∀ s, (c.after past).snapshot = some s →
        s.cpu.halted = (c.after past).isHalted := by
  constructor
  · intro h past hpast s hs
    have hrestored := h _ hpast
    rw [after_concat] at hrestored
    exact (perform_restore_agrees hs).mp hrestored
  · intro h past
    -- the last operation comes off first: what decides is the console just before it
    induction past using List.reverseRecOn with
    | nil =>
      intro _
      obtain ⟨m, rfl⟩ := eq_reset_of_build hbuild
      rfl
    | append_singleton past op ih =>
      intro hpast
      have hbefore := ih ((List.prefix_append past [op]).trans hpast)
      rw [after_concat]
      by_cases hop : op = .restore
      · subst hop
        cases hs : (c.after past).snapshot with
        | none =>
          rw [perform_restore_of_none hs]
          exact hbefore
        | some s => exact (perform_restore_agrees hs).mpr (h past hpast s hs)
      · exact hbefore.perform hop

/-- A machine that is put aside after its processor has halted can be taken up at once. -/
theorem plain_agrees :
    Console.build (boardOf 0x92) { renderCycles := 1 } = .ok (plain 0x92 1) ∧
      ∀ past, past <+: [Operation.frame Screen.blank, .save, .restore] →
        ((plain 0x92 1).after past).Agrees := by
  refine ⟨plain_built 0x92 1, (agrees_iff (plain_built 0x92 1) _).mpr ?_⟩
  rintro past ⟨rest, hpast⟩ s hs
  rcases past with _ | ⟨_, _ | ⟨_, _ | ⟨_, past⟩⟩⟩ <;> simp at hpast
  obtain ⟨rfl, rfl, -⟩ := hpast
  rw [show [Operation.frame Screen.blank, .save] = [.frame Screen.blank] ++ [.save] from rfl,
    after_concat, snapshot_save] at hs
  rw [← Option.some.inj hs]
  decide +kernel

/-- A console that runs can report a halt, and one whose processor has halted none. -/
theorem plain_disagrees :
    Console.build (boardOf 0x92) { renderCycles := 1 } = .ok (plain 0x92 1) ∧
      (let c := (plain 0x92 1).after [.save, .frame Screen.blank, .restore];
        c.isHalted = true ∧ c.machine.cpu.halted = false) ∧
      (let c := (plain 0x92 1).after [.frame Screen.blank, .save, .reset, .restore];
        c.isHalted = false ∧ c.machine.cpu.halted = true) := by
  refine ⟨plain_built 0x92 1, ?_, ?_⟩
  · decide +kernel
  · decide +kernel

end Console

end Famicom
