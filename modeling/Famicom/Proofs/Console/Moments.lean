import Famicom.Proofs.Console.Reachable

/-!
# Moment by moment through the first phase of a frame

While the picture is drawn, the machine takes steps, the drawing catches up with it tick by tick
where a step was refused, and when the machine is through the drawing is completed.  `Moment.next`
is this as a transition system, and a frame goes through its moments (`Passes.walk`).

The idea: what ties machine and drawing together is an invariant of the moments (`Moment.InStep`).
The drawing never passes the machine, and where an instruction is to run again, the drawing stands
exactly where the machine does.  What the counters say holds also where the machine does not wait
for the drawing (`Moment.Counted`).
-/

namespace Famicom

open Picture Processor

/-- What is done next while the picture is drawn. -/
inductive Stage where
  /-- the machine takes a step, unless its cycles are over -/
  | running
  /-- the drawing catches up by a tick, unless it stands where the machine does -/
  | catching
  /-- the machine is through, and the drawing goes on by a tick, unless it is complete -/
  | completing
  deriving DecidableEq

/-- A moment of the first phase of a frame. -/
structure Moment (κ σ : Type) where
  stage : Stage
  drawing : Drawing κ σ

namespace Moment

variable {κ σ : Type} {r : Nat} {t t' : Moment κ σ} {d d' d₀ : Drawing κ σ}

section Moments

variable [Cartridge κ] [PixelSink σ]

/-- The moment after this one, in a phase of `r` cycles.  There is none where the processor has
halted or the picture is complete. -/
def next (r : Nat) : Moment κ σ → Option (Moment κ σ)
  | ⟨.running, d⟩ =>
    if d.machine.cpu.cycles.toNat < r then
      match d.onMachine Machine.step with
      | (.ran _, d) => some ⟨.running, d⟩
      | (.waits, d) => some ⟨.catching, d⟩
      | (.halted _, _) => none
    else some ⟨.completing, d⟩
  | ⟨.catching, d⟩ =>
    if d.elapsed < d.tickOfCpu then some ⟨.catching, d.ticks 1⟩ else some ⟨.running, d.noteCaughtUp⟩
  | ⟨.completing, d⟩ =>
    if d.elapsed < r * ticksPerCycle then some ⟨.completing, d.ticks 1⟩ else none

/-- The moments of a phase of `r` cycles that begins with `d₀`. -/
inductive Passes (r : Nat) (d₀ : Drawing κ σ) : Moment κ σ → Prop
  | start : Passes r d₀ ⟨.running, d₀⟩
  | next {t t' : Moment κ σ} (h : Passes r d₀ t) (h' : t.next r = some t') : Passes r d₀ t'

def after (r : Nat) : Nat → Moment κ σ → Option (Moment κ σ)
  | 0, t => some t
  | n + 1, t => (after r n t).bind (next r)

theorem Passes.exists_after (h : Passes r d₀ t) : ∃ n, after r n ⟨.running, d₀⟩ = some t := by
  induction h with
  | start => exact ⟨0, rfl⟩
  | next _ ht ih =>
    obtain ⟨n, hn⟩ := ih
    exact ⟨n + 1, by rw [after, hn, Option.bind_some, ht]⟩

end Moments

/-! ### The invariant -/

/-- What a stage says about the instruction in hand. -/
def Fits (r : Nat) (d : Drawing κ σ) : Stage → Prop
  | .running => d.machine.cpu.sync.retrying = true →
    d.elapsed = d.tickOfCpu ∧ d.machine.cpu.cycles.toNat < r
  | .catching => d.machine.cpu.sync.retrying = true ∧ d.machine.cpu.cycles.toNat < r
  | .completing => d.machine.cpu.sync.retrying = false ∧ r ≤ d.machine.cpu.cycles.toNat

/-- What the counters say, whether or not the drawing is waited for. -/
structure Counted (r : Nat) (t : Moment κ σ) : Prop where
  stall : t.drawing.machine.bus.stall = 0
  cycles : t.drawing.machine.cpu.cycles.toNat ≤ r + 519
  catching : t.stage = .catching → t.drawing.machine.cpu.cycles.toNat < r
  within : t.drawing.elapsed ≤ r * ticksPerCycle
  onCourse : t.drawing.raster.beam.OnCourse

/-- Machine and drawing are in step. -/
structure InStep (r : Nat) (t : Moment κ σ) : Prop extends Counted r t where
  awaiting : t.drawing.machine.cpu.sync.awaiting = true
  behind : t.drawing.elapsed ≤ t.drawing.tickOfCpu
  fits : Fits r t.drawing t.stage

namespace Counted

variable [Cartridge κ]

theorem ran (h : Counted r ⟨.running, d⟩) (hr : 3 * r < UInt32.size)
    (hlt : d.machine.cpu.cycles.toNat < r) {n : Nat} {m : Machine κ}
    (hs : d.machine.step = (.ran n, m)) :
    m.cpu.cycles.toNat = d.machine.cpu.cycles.toNat + n ∧
      Counted r ⟨.running, { d with machine := m }⟩ := by
  have hran := Machine.ran_of_step hs
  obtain ⟨hcycles, hle⟩ := hran.counted h.stall hr hlt
  exact ⟨hcycles, hran.stall, hle, by simp, h.within, h.onCourse⟩

theorem waits (h : Counted r ⟨.running, d⟩) (hlt : d.machine.cpu.cycles.toNat < r) {m : Machine κ}
    (hs : d.machine.step = (.waits, m)) : Counted r ⟨.catching, { d with machine := m }⟩ := by
  have hcycles : m.cpu.cycles = d.machine.cpu.cycles := by rw [Machine.cpu_of_waits hs]
  refine ⟨?_, ?_, ?_, h.within, h.onCourse⟩
  · show m.bus.stall = 0
    rw [Machine.bus_of_waits hs]
    exact h.stall
  · show m.cpu.cycles.toNat ≤ r + 519
    rw [hcycles]
    exact h.cycles
  · intro _
    show m.cpu.cycles.toNat < r
    rwa [hcycles]

omit [Cartridge κ] in
/-- Where the drawing catches up, the end of the picture is not near. -/
theorem elapsed_lt (h : Counted r ⟨.catching, d⟩) (hlt : d.elapsed < d.tickOfCpu) :
    d.elapsed < r * ticksPerCycle :=
  Nat.lt_trans hlt (Nat.mul_lt_mul_of_pos_right (h.catching rfl) (by decide))

variable [PixelSink σ]

theorem tick {s : Stage} (h : Counted r ⟨s, d⟩) (hlt : d.elapsed < r * ticksPerCycle) :
    Counted r ⟨s, d.ticks 1⟩ where
  stall := h.stall
  cycles := h.cycles
  catching := h.catching
  within := by
    rw [Drawing.ticks_elapsed]
    exact hlt
  onCourse := Drawing.ticks_onCourse 1 h.onCourse

theorem drawUntil_elapsed {s : Stage} (h : Counted r ⟨s, d⟩) :
    (d.drawUntil (r * ticksPerCycle)).elapsed = r * ticksPerCycle := by
  rw [Drawing.drawUntil_elapsed]
  exact Nat.max_eq_right h.within

theorem next (h : Counted r t) (hr : 3 * r < UInt32.size) (ht : t.next r = some t') :
    Counted r t' := by
  obtain ⟨s, d⟩ := t
  cases s with
  | running =>
    rw [Moment.next, Drawing.onMachine_eq] at ht
    split at ht
    · rename_i hlt
      rcases hs : d.machine.step with ⟨p, m⟩
      rw [hs] at ht
      cases p <;> cases ht
      · exact (h.ran hr hlt hs).2
      · exact h.waits hlt hs
    · cases ht
      exact ⟨h.stall, h.cycles, by simp, h.within, h.onCourse⟩
  | catching =>
    rw [Moment.next] at ht
    split at ht <;> rename_i hlt <;> cases ht
    · exact h.tick (h.elapsed_lt hlt)
    · exact ⟨h.stall, h.cycles, by simp, h.within, h.onCourse⟩
  | completing =>
    rw [Moment.next] at ht
    split at ht <;> rename_i hlt <;> cases ht
    exact h.tick hlt

end Counted

namespace InStep

variable [Cartridge κ]

theorem ran (h : InStep r ⟨.running, d⟩) (hr : 3 * r < UInt32.size)
    (hlt : d.machine.cpu.cycles.toNat < r) {n : Nat} {m : Machine κ}
    (hs : d.machine.step = (.ran n, m)) : InStep r ⟨.running, { d with machine := m }⟩ := by
  have hran := Machine.ran_of_step hs
  obtain ⟨hcycles, hcounted⟩ := h.toCounted.ran hr hlt hs
  refine ⟨hcounted, ?_, ?_, ?_⟩
  · show m.cpu.sync.awaiting = true
    rw [hran.sync]
    exact h.awaiting
  · have hbehind : d.elapsed ≤ d.machine.cpu.cycles.toNat * 3 := h.behind
    show d.elapsed ≤ m.cpu.cycles.toNat * 3
    omega
  · intro hretry
    rw [show (Drawing.machine { d with machine := m }).cpu.sync = _ from hran.sync] at hretry
    cases hretry

theorem waits (h : InStep r ⟨.running, d⟩) (hlt : d.machine.cpu.cycles.toNat < r) {m : Machine κ}
    (hs : d.machine.step = (.waits, m)) : InStep r ⟨.catching, { d with machine := m }⟩ := by
  have hcpu := Machine.cpu_of_waits hs
  have hcounted := h.toCounted.waits hlt hs
  refine ⟨hcounted, ?_, ?_, ?_, hcounted.catching rfl⟩
  · show m.cpu.sync.awaiting = true
    rw [hcpu]
  · show d.elapsed ≤ m.cpu.cycles.toNat * 3
    rw [hcpu]
    exact h.behind
  · show m.cpu.sync.retrying = true
    rw [hcpu]

variable [PixelSink σ]

theorem tick {s : Stage} (hs : s ≠ .running) (h : InStep r ⟨s, d⟩) (hlt : d.elapsed < d.tickOfCpu)
    (hwithin : d.elapsed < r * ticksPerCycle) : InStep r ⟨s, d.ticks 1⟩ where
  toCounted := h.toCounted.tick hwithin
  awaiting := h.awaiting
  behind := by
    rw [Drawing.ticks_elapsed]
    exact hlt
  fits := by
    cases s with
    | running => exact absurd rfl hs
    | catching => exact h.fits
    | completing => exact h.fits

theorem next (h : InStep r t) (hr : 3 * r < UInt32.size) (ht : t.next r = some t') :
    InStep r t' := by
  have hcounted := h.toCounted.next hr ht
  obtain ⟨s, d⟩ := t
  cases s with
  | running =>
    rw [Moment.next, Drawing.onMachine_eq] at ht
    split at ht
    · rename_i hlt
      rcases hs : d.machine.step with ⟨p, m⟩
      rw [hs] at ht
      cases p <;> cases ht
      · exact h.ran hr hlt hs
      · exact h.waits hlt hs
    · rename_i hge
      cases ht
      refine ⟨hcounted, h.awaiting, h.behind, ?_, Nat.le_of_not_lt hge⟩
      cases hretry : d.machine.cpu.sync.retrying with
      | false => rfl
      | true => exact absurd (h.fits hretry).2 hge
  | catching =>
    rw [Moment.next] at ht
    split at ht <;> rename_i hcaught <;> cases ht
    · exact h.tick (by simp) hcaught (h.toCounted.elapsed_lt hcaught)
    · refine ⟨hcounted, h.awaiting, h.behind, fun _ => ⟨?_, h.fits.2⟩⟩
      exact Nat.le_antisymm h.behind (Nat.le_of_not_lt hcaught)
  | completing =>
    rw [Moment.next] at ht
    split at ht <;> rename_i hlt <;> cases ht
    refine h.tick (by simp) (Nat.lt_of_lt_of_le hlt ?_) hlt
    exact Nat.mul_le_mul_right _ h.fits.2

end InStep

variable [Cartridge κ] [PixelSink σ]

theorem Passes.counted (h : Passes r d₀ t) (hr : 3 * r < UInt32.size)
    (h₀ : Counted r ⟨.running, d₀⟩) :
    Counted r t := by
  induction h with
  | start => exact h₀
  | next _ ht ih => exact ih.next hr ht

/-- **Machine and drawing stay in step.** -/
theorem Passes.inStep (h : Passes r d₀ t) (hr : 3 * r < UInt32.size)
    (h₀ : InStep r ⟨.running, d₀⟩) :
    InStep r t := by
  induction h with
  | start => exact h₀
  | next _ ht ih => exact ih.next hr ht

/-- When the picture is complete, nothing is left to be run again. -/
theorem InStep.endRender_sync (h : InStep r ⟨.completing, d⟩) (target : Nat) :
    (d.endRender target).machine.cpu.sync = {} := by
  have hretry : d.machine.cpu.sync.retrying = false := h.fits.1
  show Sync.mk false d.machine.cpu.sync.retrying = {}
  rw [hretry]

/-- When its cycles are over, the machine does not run any more. -/
theorem next_cycles (ht : t.next r = some t') (h : r ≤ t.drawing.machine.cpu.cycles.toNat) :
    t'.drawing.machine.cpu.cycles = t.drawing.machine.cpu.cycles := by
  obtain ⟨s, d⟩ := t
  cases s with
  | running =>
    rw [next, if_neg (Nat.not_lt_of_le h)] at ht
    cases ht
    rfl
  | catching =>
    rw [next] at ht
    split at ht <;> cases ht <;> rfl
  | completing =>
    rw [next] at ht
    split at ht <;> cases ht
    rfl

theorem after_cycles {n k : Nat} {t₀ : Moment κ σ} (ht : after r n t₀ = some t)
    (h : r ≤ t.drawing.machine.cpu.cycles.toNat) (hk : after r k t₀ = some t') (hle : n ≤ k) :
    t'.drawing.machine.cpu.cycles = t.drawing.machine.cpu.cycles := by
  induction hle generalizing t' with
  | refl =>
    rw [ht] at hk
    cases hk
    rfl
  | step _ ih =>
    obtain ⟨t₁, h₁, hnext⟩ := Option.bind_eq_some_iff.mp hk
    have hsame := ih h₁
    rw [← hsame]
    exact next_cycles hnext (hsame ▸ h)

/-! ### A frame goes through its moments -/

namespace Passes

/-- Tick by tick the drawing catches up. -/
theorem catchUp (h : Passes r d₀ ⟨.catching, d⟩) : Passes r d₀ ⟨.running, d.catchUp⟩ := by
  obtain ⟨n, hn⟩ : ∃ n, n = d.tickOfCpu - d.elapsed := ⟨_, rfl⟩
  induction n generalizing d with
  | zero =>
    have hcaught : ¬ d.elapsed < d.tickOfCpu := by omega
    rw [Drawing.catchUp, Drawing.drawUntil_of_le (Nat.le_of_not_lt hcaught)]
    exact h.next (by rw [Moment.next, if_neg hcaught])
  | succ n ih =>
    have hlt : d.elapsed < d.tickOfCpu := by omega
    have hnext : Passes r d₀ ⟨.catching, d.ticks 1⟩ := h.next (by rw [Moment.next, if_pos hlt])
    have hcatch : (d.ticks 1).catchUp = d.catchUp :=
      congrArg Drawing.noteCaughtUp (Drawing.drawUntil_tick hlt)
    rw [← hcatch]
    refine ih hnext ?_
    rw [Drawing.ticks_elapsed]
    exact (by omega : n = d.tickOfCpu - (d.elapsed + 1))

theorem draw (h : Passes r d₀ ⟨.completing, d⟩) {target : Nat} (ht : target ≤ r * ticksPerCycle) :
    Passes r d₀ ⟨.completing, d.drawUntil target⟩ := by
  obtain ⟨n, hn⟩ : ∃ n, n = target - d.elapsed := ⟨_, rfl⟩
  induction n generalizing d with
  | zero =>
    rw [Drawing.drawUntil_of_le (by omega)]
    exact h
  | succ n ih =>
    have hlt : d.elapsed < target := by omega
    have hnext : Passes r d₀ ⟨.completing, d.ticks 1⟩ :=
      h.next (by rw [Moment.next, if_pos (Nat.lt_of_lt_of_le hlt ht)])
    rw [← Drawing.drawUntil_tick hlt]
    refine ih hnext ?_
    rw [Drawing.ticks_elapsed]
    omega

theorem complete (h : Passes r d₀ ⟨.completing, d⟩) :
    Passes r d₀ ⟨.completing, d.drawUntil (r * ticksPerCycle)⟩ := h.draw (Nat.le_refl _)

/-- Together with what a refusal leads to, a step is one of the machine that is not refused. -/
theorem step (h : Passes r d₀ ⟨.running, d⟩) (hlt : d.machine.cpu.cycles.toNat < r) :
    ∃ d₁ : Drawing κ σ, Passes r d₀ ⟨.running, d₁⟩ ∧ d₁.machine.cpu.cycles = d.machine.cpu.cycles ∧
      d₁.machine.step.1 ≠ .waits ∧ d.step = d₁.onMachine Machine.step := by
  by_cases hw : d.machine.step.1 = .waits
  · rcases hs : d.machine.step with ⟨p, m⟩
    obtain rfl : p = .waits := by rw [hs] at hw; exact hw
    have hcpu := Machine.cpu_of_waits hs
    have hcatching : Passes r d₀ ⟨.catching, { d with machine := m }⟩ :=
      h.next (by rw [Moment.next, if_pos hlt, Drawing.onMachine_eq, hs])
    refine ⟨_, hcatching.catchUp, ?_, ?_, Drawing.step_of_waits hs⟩
    · show m.cpu.cycles = _
      rw [hcpu]
    · refine Machine.step_ne_waits ?_
      show m.cpu.sync.mustWait = false
      rw [hcpu]
      rfl
  · exact ⟨d, h, rfl, hw, Drawing.step_of_ne_waits hw⟩

theorem ran (h : Passes r d₀ ⟨.running, d⟩) (hr : 3 * r < UInt32.size)
    (h₀ : Counted r ⟨.running, d₀⟩)
    (hlt : d.machine.cpu.cycles.toNat < r) {n : Nat} (hs : d.step = (.ran n, d')) :
    Passes r d₀ ⟨.running, d'⟩ ∧
      d'.machine.cpu.cycles.toNat = d.machine.cpu.cycles.toNat + n ∧ 2 ≤ n := by
  obtain ⟨d₁, h₁, hcycles, -, hstep⟩ := h.step hlt
  rw [← hcycles] at hlt ⊢
  rw [hstep, Drawing.onMachine_eq] at hs
  rcases hm : d₁.machine.step with ⟨p, m⟩
  rw [hm] at hs
  cases hs
  refine ⟨h₁.next ?_, ((h₁.counted hr h₀).ran hr hlt hm).1, (Machine.ran_of_step hm).two_le⟩
  rw [Moment.next, if_pos hlt, Drawing.onMachine_eq, hm]

end Passes

/-- How a phase ends: after all its cycles, or where a step finds that the processor has halted. -/
def Ends (r : Nat) (d₀ : Drawing κ σ) : Outcome × Drawing κ σ → Prop
  | (.completed excess, d) =>
    Passes r d₀ ⟨.running, d⟩ ∧ d.machine.cpu.cycles.toNat = r + excess
  | (.waits, _) => False
  | (.halted pc, d) => ∃ d₁, Passes r d₀ ⟨.running, d₁⟩ ∧ d₁.machine.cpu.cycles.toNat < r ∧
    d₁.onMachine Machine.step = (.halted pc, d)

theorem Ends.completed {excess : Nat} (h : Ends r d₀ (.completed excess, d)) :
    Passes r d₀ ⟨.completing, d⟩ := by
  obtain ⟨hpasses, hcycles⟩ := h
  exact hpasses.next (by rw [Moment.next, if_neg (by omega)])

/-- In a walk through a phase, `n` cycles before its end, the machine is `busy` cycles ahead. -/
theorem Passes.walk (hr : 3 * r < UInt32.size) (h₀ : Counted r ⟨.running, d₀⟩) (n busy : Nat)
    (h : Passes r d₀ ⟨.running, d⟩) (hn : d.machine.cpu.cycles.toNat + n = r + busy) :
    Ends r d₀ (walk Drawing.step n busy d) := by
  induction n generalizing busy d with
  | zero => exact ⟨h, hn⟩
  | succ n ih =>
    cases busy with
    | succ busy => exact ih busy h (by omega)
    | zero =>
      have hlt : d.machine.cpu.cycles.toNat < r := by omega
      rw [Famicom.walk]
      rcases hs : d.step with ⟨p, d'⟩
      cases p with
      | ran k =>
        obtain ⟨h', hk, htwo⟩ := h.ran hr h₀ hlt hs
        exact ih (k - 1) h' (by omega)
      | waits =>
        obtain ⟨d₁, -, -, hne, hstep⟩ := h.step hlt
        rw [hstep] at hs
        exact hne (congrArg Prod.fst hs)
      | halted pc =>
        obtain ⟨d₁, h₁, hcycles, -, hstep⟩ := h.step hlt
        exact ⟨d₁, h₁, hcycles ▸ hlt, hstep ▸ hs⟩

end Moment

namespace Console

variable {κ σ : Type} {c : Console κ}

theorem Sound.counted (h : Sound c) (sink : σ) :
    Moment.Counted c.settings.renderCycles ⟨.running, c.opening sink⟩ where
  stall := h.stall
  cycles := Nat.zero_le _
  catching := by simp
  within := Nat.zero_le _
  onCourse := Beam.onCourse_start

theorem Sound.opening (h : Sound c) (hs : c.settings.synchronised = true) (sink : σ) :
    Moment.InStep c.settings.renderCycles ⟨.running, c.opening sink⟩ where
  toCounted := h.counted sink
  awaiting := hs
  behind := Nat.zero_le _
  fits hretry := ⟨rfl, Nat.pos_of_ne_zero (h.retrying hretry)⟩

variable [Cartridge κ] [PixelSink σ]

/-- The moments of the first phase of a frame. -/
abbrev Passes (c : Console κ) (sink : σ) : Moment κ σ → Prop :=
  Moment.Passes c.settings.renderCycles (c.opening sink)

/-- A frame in which the processor gets to the registers of the picture unit at the right tick. -/
structure OnTime (c : Console κ) (sink : σ) : Prop where
  /-- the first phase ends at one of its moments, and no step is left that was refused -/
  ends : Moment.Ends c.settings.renderCycles (c.opening sink) (c.rendering sink)
  /-- the drawing never passes the machine -/
  behind (t : Moment κ σ) (h : c.Passes sink t) : t.drawing.elapsed ≤ t.drawing.tickOfCpu
  /-- a register is accessed only where the drawing stands at the cycle at which the step begins -/
  exact (d : Drawing κ σ) (h : c.Passes sink ⟨.running, d⟩)
    (hlt : d.machine.cpu.cycles.toNat < c.settings.renderCycles) (a : Access)
    (ha : a ∈ d.machine.accesses) (hreg : isRegister a.address = true) : d.elapsed = d.tickOfCpu
  /-- when the machine is through, the picture is completed -/
  completed (excess : Nat) (d : Drawing κ σ) (h : c.rendering sink = (.completed excess, d)) :
    c.Passes sink ⟨.completing, d.drawUntil c.settings.renderTicks⟩ ∧
      (d.drawUntil c.settings.renderTicks).elapsed = c.settings.renderTicks
  /-- in the second phase no step is refused -/
  rests (excess : Nat) (d : Drawing κ σ) (h : c.rendering sink = (.completed excess, d)) :
    (c.resting d).1 ≠ .waits
  /-- nothing is left to be run again -/
  settled (h : (c.runFrame sink).1 = .ok ()) :
    (c.runFrame sink).2.1.machine.cpu.sync.retrying = false ∧
      (c.runFrame sink).2.1.raster.beam.elapsed = c.settings.renderTicks

/-- **Registers are accessed on time.**  This is so for every frame of a console, whatever was done
to it before, as long as the ticks of a picture can be counted. -/
theorem Reachable.onTime (hc : Reachable c) (hh : c.halt = none)
    (hs : c.settings.synchronised = true) (hr : 3 * c.settings.renderCycles < UInt32.size) (sink : σ) :
    c.OnTime sink := by
  have h₀ := hc.sound.opening hs sink
  have hin {t : Moment κ σ} (h : c.Passes sink t) := h.inStep hr h₀
  have hends : Moment.Ends c.settings.renderCycles (c.opening sink) (c.rendering sink) :=
    Moment.Passes.walk hr h₀.toCounted _ 0 .start (Nat.zero_add _)
  have hthrough {excess : Nat} {d : Drawing κ σ} (h : c.rendering sink = (.completed excess, d)) :
      c.Passes sink ⟨.completing, d⟩ := Moment.Ends.completed (h ▸ hends)
  have hidle {excess : Nat} {d : Drawing κ σ} (h : c.rendering sink = (.completed excess, d)) :
      (d.endRender c.settings.renderTicks).machine.cpu.sync = {} :=
    (hin (hthrough h)).endRender_sync _
  have hcomplete {excess : Nat} {d : Drawing κ σ} (h : c.rendering sink = (.completed excess, d)) :
      (d.drawUntil c.settings.renderTicks).elapsed = c.settings.renderTicks :=
    (hin (hthrough h)).toCounted.drawUntil_elapsed
  refine ⟨hends, fun t h => (hin h).behind, fun d h hlt a ha hreg => ?_, fun excess d h => ?_,
    fun excess d h => (Machine.burst_idle (hidle h) _).1, fun h => ?_⟩
  · have hretry : d.machine.cpu.sync.retrying = true := by
      cases hretry : d.machine.cpu.sync.retrying with
      | true => rfl
      | false =>
        have hm : d.machine.cpu.sync.mustWait = true := by
          rw [Sync.mustWait, (hin h).awaiting, hretry]
          rfl
        have haside := Machine.accesses_of_mustWait hm a ha
        rw [hreg] at haside
        cases haside
    exact ((hin h).fits hretry).1
  · exact ⟨(hthrough h).complete, hcomplete h⟩
  · rw [runFrame_of_not_halted hh] at h ⊢
    rcases hd : c.rendering sink with ⟨excess | _ | pc, d⟩
    · rw [conclude_machine, conclude_raster,
        show c.frame sink = c.resting d by rw [Console.frame, hd]]
      exact ⟨by rw [show (c.resting d).2.machine.cpu.sync = {} from
        (Machine.burst_idle (hidle hd) _).2], hcomplete hd⟩
    · rw [hd] at hends
      exact hends.elim
    · rw [Console.frame, hd] at h
      cases h

theorem plain_onTime :
    (plain 0x20 27508).Reachable ∧ (plain 0x20 27508).halt = none ∧
      (plain 0x20 27508).OnTime Screen.blank :=
  ⟨plain_reachable _ _, rfl,
    Reachable.onTime (plain_reachable 0x20 27508) rfl rfl (by decide) Screen.blank⟩

end Console

end Famicom
