import Famicom.Proofs.Console.Moments
import Famicom.Proofs.Console.Operations
import Famicom.Proofs.Machine.Bursts
import Mathlib.Data.List.Induction

/-!
# Room for the counters

The counters of a console are numbers without an end.  If they were words of 64 bits for the cycles
since the last reset and of 32 for everything else, nothing would go differently: a burst that stops
counting at the end of its word makes the same steps (`saturatingBurst_eq`), and if the phases of a
frame are short enough to be counted (`Settings.Fits`), then no counter outgrows its word within the
first 2³¹ operations (`roomy_after`).

Between two steps no transfer is unaccounted for, and a step takes 520 cycles at most.  So a walk
goes at most 519 cycles beyond its end (`walk_total_le`), and there are two of them in a frame.
-/

namespace Famicom

open Picture Processor

/-! ### Bursts that count in 32 bits -/

/-- A sum, as far as 32 bits go. -/
def saturatingAdd (a : UInt32) (k : Nat) : UInt32 := .ofNat (min (a.toNat + k) (UInt32.size - 1))

theorem toNat_saturatingAdd (a : UInt32) (k : Nat) :
    (saturatingAdd a k).toNat = min (a.toNat + k) (UInt32.size - 1) :=
  UInt32.toNat_ofNat_of_lt' (Nat.lt_of_le_of_lt (Nat.min_le_right _ _) (by decide))

/-- An outcome that keeps to itself how far beyond its end a walk went. -/
def Outcome.plain : Outcome → Outcome
  | .completed _ => .completed 0
  | o => o

namespace Machine

variable {κ : Type} [Cartridge κ]

/-- What is left of a burst when `ran` cycles have run, counting in 32 bits. -/
def saturatingBurst (budget ran : UInt32) (m : Machine κ) : Outcome × Machine κ :=
  if ran < budget then
    match _ : m.step with
    | (.ran k, m') => saturatingBurst budget (saturatingAdd ran k) m'
    | (.waits, m') => (.waits, m')
    | (.halted pc, m') => (.halted pc, m')
  else (.completed 0, m)
termination_by budget.toNat - ran.toNat
decreasing_by
  have hlt : ran.toNat < budget.toNat := UInt32.lt_iff_toNat_lt.mp ‹_›
  have hpos := pos_of_step m k m' ‹_›
  have hsize := budget.toNat_lt_size
  rw [toNat_saturatingAdd]
  omega

/-- **Stopping to count at the end of 32 bits changes no burst.** -/
theorem saturatingBurst_eq (m : Machine κ) (budget : UInt32) :
    m.saturatingBurst budget 0 =
      ((m.burst budget.toNat).1.plain, (m.burst budget.toNat).2) := by
  -- for any count, with the walk through the cycles that are left
  suffices h : ∀ (ran : UInt32) (m : Machine κ), m.saturatingBurst budget ran =
      ((walk step (budget.toNat - ran.toNat) 0 m).1.plain,
        (walk step (budget.toNat - ran.toNat) 0 m).2) from h 0 m
  intro ran m
  fun_induction saturatingBurst budget ran m with
  | case1 ran m hlt k m' hs ih =>
    have hlt' : ran.toNat < budget.toNat := UInt32.lt_iff_toNat_lt.mp hlt
    have hsize := budget.toNat_lt_size
    rw [ih, toNat_saturatingAdd, walk_ran pos_of_step hs hlt']
    rcases Nat.lt_or_ge (ran.toNat + k) budget.toNat with hmore | hover
    · rw [Nat.min_eq_left (by omega), Nat.sub_eq_zero_of_le (Nat.le_of_lt hmore)]
    · -- both counts have come to the budget, which is all that is asked
      rw [show budget.toNat - min (ran.toNat + k) (UInt32.size - 1) = 0 by omega,
        show budget.toNat - (ran.toNat + k) = 0 by omega]
      rfl
  | case2 ran m hlt m' hs =>
    rw [walk_of_lt (UInt32.lt_iff_toNat_lt.mp hlt), hs]
    rfl
  | case3 ran m hlt pc m' hs =>
    rw [walk_of_lt (UInt32.lt_iff_toNat_lt.mp hlt), hs]
    rfl
  | case4 ran m hge =>
    have hle : budget.toNat ≤ ran.toNat := UInt32.le_iff_toNat_le.mp (UInt32.not_lt.mp hge)
    rw [Nat.sub_eq_zero_of_le hle]
    rfl

end Machine

/-! ### The cycles of a walk -/

/-- A walk whose steps take 520 cycles at most goes at most 519 beyond its end. -/
theorem walk_total_le {σ : Type} {step : σ → Progress × σ} {P : σ → Prop} (total : σ → Nat)
    (hstep : ∀ s, P s → P (step s).2 ∧ (step s).1.reported ≤ 520 ∧
      total (step s).2 = total s + (step s).1.reported)
    (n : Nat) {busy : Nat} (hbusy : busy ≤ 519) {s : σ} (h : P s) :
    total (walk step n busy s).2 ≤ total s + (n + 519 - busy) := by
  induction n generalizing busy s with
  | zero => exact Nat.le_add_right _ _
  | succ n ih =>
    cases busy with
    | succ busy =>
      have := ih (Nat.le_of_succ_le hbusy) h
      rw [walk]
      omega
    | zero =>
      obtain ⟨hkept, hle, htotal⟩ := hstep s h
      rcases hs : step s with ⟨k | _ | pc, t⟩ <;> rw [hs] at hkept hle htotal <;>
        simp only [walk, hs] <;> dsimp only [Progress.reported] at hkept hle htotal
      · have := ih (show k - 1 ≤ 519 by omega) hkept
        omega
      · omega
      · omega

namespace Machine

variable {κ : Type} [Cartridge κ] {m : Machine κ}

/-- What a step adds to the cycles since the last reset. -/
theorem step_total (h : m.bus.stall = 0) :
    m.step.2.bus.stall = 0 ∧ m.step.1.reported ≤ 520 ∧
      m.step.2.cpu.totalCycles = m.cpu.totalCycles + m.step.1.reported := by
  refine ⟨step_stall h, ?_, m.step_reported.2⟩
  rcases hs : m.step with ⟨k | _ | pc, m'⟩
  · have hle := (ran_of_step hs).le
    rwa [h, Nat.zero_add] at hle
  · exact Nat.zero_le _
  · exact Nat.zero_le _

theorem burst_total_le (h : m.bus.stall = 0) (budget : Nat) :
    (m.burst budget).2.cpu.totalCycles ≤ m.cpu.totalCycles + (budget + 519) :=
  walk_total_le (P := fun m : Machine κ => m.bus.stall = 0) (·.cpu.totalCycles)
    (fun _ => step_total) budget (Nat.zero_le _) h

end Machine

namespace Drawing

variable {κ σ : Type} [Cartridge κ] [PixelSink σ] {d : Drawing κ σ}

/-- Drawing takes no cycles. -/
theorem step_total (h : d.machine.bus.stall = 0) :
    d.step.2.machine.bus.stall = 0 ∧ d.step.1.reported ≤ 520 ∧
      d.step.2.machine.cpu.totalCycles = d.machine.cpu.totalCycles + d.step.1.reported := by
  by_cases hw : d.machine.step.1 = .waits
  · rcases hs : d.machine.step with ⟨p, m⟩
    obtain rfl : p = .waits := by rw [hs] at hw; exact hw
    have hstall : ({ d with machine := m } : Drawing κ σ).catchUp.machine.bus.stall = 0 := by
      show m.bus.stall = 0
      rwa [Machine.bus_of_waits hs]
    have htotal : ({ d with machine := m } : Drawing κ σ).catchUp.machine.cpu.totalCycles =
        d.machine.cpu.totalCycles := by
      show m.cpu.totalCycles = _
      rw [Machine.cpu_of_waits hs]
    rw [step_of_waits hs, ← htotal]
    exact Machine.step_total hstall
  · rw [step_of_ne_waits hw]
    exact Machine.step_total h

theorem render_total_le (h : d.machine.bus.stall = 0) (cycles : Nat) :
    (d.render cycles).2.machine.bus.stall = 0 ∧
      (d.render cycles).2.machine.cpu.totalCycles ≤ d.machine.cpu.totalCycles + (cycles + 519) :=
  ⟨walk_keeps (P := fun d : Drawing κ σ => d.machine.bus.stall = 0)
      (fun _ h => (step_total h).1) cycles 0 h,
    walk_total_le (P := fun d : Drawing κ σ => d.machine.bus.stall = 0)
      (·.machine.cpu.totalCycles) (fun _ => step_total) cycles (Nat.zero_le _) h⟩

end Drawing

/-! ### Frames -/

/-- The cycles of both phases, and the ticks of the picture, can be counted in 32 bits. -/
structure Settings.Fits (s : Settings) : Prop where
  render : 3 * s.renderCycles < UInt32.size
  vblank : s.vblankCycles < UInt32.size

/-- The most cycles that a frame runs for. -/
def Settings.mostCycles (s : Settings) : Nat := s.renderCycles + s.vblankCycles + 2 * 519

theorem Settings.default_fits : ({} : Settings).Fits := ⟨by decide, by decide⟩

namespace Console

variable {κ σ : Type} [Cartridge κ] [PixelSink σ] {c : Console κ}

theorem frame_total_le (h : c.machine.bus.stall = 0) (sink : σ) :
    (c.frame sink).2.machine.cpu.totalCycles ≤
      c.machine.cpu.totalCycles + c.settings.mostCycles := by
  obtain ⟨hstall, hrender⟩ := Drawing.render_total_le (d := c.opening sink) h c.settings.renderCycles
  have hrest := Machine.burst_total_le
    (m := ((c.rendering sink).2.endRender c.settings.renderTicks).machine) hstall
    c.settings.vblankCycles
  have hfirst : c.settings.renderCycles + 519 ≤ c.settings.mostCycles := by
    unfold Settings.mostCycles
    omega
  have hboth : c.settings.renderCycles + 519 + (c.settings.vblankCycles + 519) =
      c.settings.mostCycles := by
    unfold Settings.mostCycles
    omega
  have hresting : (c.resting (c.rendering sink).2).2.machine.cpu.totalCycles ≤
      c.machine.cpu.totalCycles + c.settings.mostCycles := by
    rw [← hboth, ← Nat.add_assoc]
    exact Nat.le_trans hrest (Nat.add_le_add_right hrender _)
  rw [frame]
  split <;> rename_i hd
  · exact Nat.le_trans (hd ▸ hrender) (Nat.add_le_add_left hfirst _)
  · rwa [hd] at hresting

/-- A frame leaves the drawing no further than its picture goes. -/
theorem Sound.frame_elapsed_le (h : Sound c) (hs : c.settings.Fits) (sink : σ) :
    (Console.frame c sink).2.elapsed ≤ c.settings.renderTicks := by
  have h₀ := h.counted sink
  have hends : Moment.Ends c.settings.renderCycles (c.opening sink) (c.rendering sink) :=
    Moment.Passes.walk hs.render h₀ _ 0 .start (Nat.zero_add _)
  rw [Console.frame]
  rcases hd : c.rendering sink with ⟨excess | _ | pc, d⟩ <;> rw [hd] at hends
  · have hcounted := (Moment.Ends.completed hends).counted hs.render h₀
    exact Nat.le_of_eq hcounted.drawUntil_elapsed
  · exact hends.elim
  · obtain ⟨d₁, h₁, -, hstep⟩ := hends
    have hd₁ : d = (d₁.onMachine Machine.step).2 := by rw [hstep]
    rw [hd₁]
    exact (h₁.counted hs.render h₀).within

/-! ### Operations -/

/-- What the counters of a machine and its drawing say, at most, after `n` operations. -/
structure Within (s : Settings) (n : Nat) (cpu : Cpu) (raster : Raster) : Prop where
  total : cpu.totalCycles ≤ Cpu.interruptCycles + n * s.mostCycles
  elapsed : raster.beam.elapsed ≤ s.renderTicks

/-- What the counters of a console say, at most, after `n` operations. -/
structure Tallied (s : Settings) (n : Nat) (c : Console κ) : Prop where
  settings : c.settings = s
  machine : Within s n c.machine.cpu c.raster
  saved : ∀ snapshot, c.snapshot = some snapshot → Within s n snapshot.cpu snapshot.raster
  halt : ∀ halt, c.halt = some halt → halt.cycles ≤ Cpu.interruptCycles + n * s.mostCycles

variable {s : Settings} {n : Nat}

omit [Cartridge κ] in
theorem Within.succ {cpu : Cpu} {raster : Raster} (h : Within s n cpu raster) :
    Within s (n + 1) cpu raster := by
  refine ⟨Nat.le_trans h.total ?_, h.elapsed⟩
  rw [Nat.succ_mul]
  omega

namespace Tallied

omit [Cartridge κ] in
theorem succ (h : Tallied s n c) : Tallied s (n + 1) c where
  settings := h.settings
  machine := h.machine.succ
  saved snapshot hs := (h.saved snapshot hs).succ
  halt halt hh := by
    have := h.halt halt hh
    rw [Nat.succ_mul]
    omega

theorem reset (h : Tallied s n c) : Tallied s n c.reset where
  settings := h.settings
  machine := ⟨Nat.le_add_right _ _, Nat.zero_le _⟩
  saved := h.saved
  halt halt hh := by cases hh

theorem of_build {cart : κ} {journal : Journal} (h : build cart s journal = .ok c) :
    Tallied s 0 c := by
  obtain ⟨m, rfl⟩ := eq_reset_of_build h
  refine ⟨rfl, ⟨Nat.le_add_right _ _, Nat.zero_le _⟩, fun _ hs => ?_, fun _ hh => ?_⟩
  · cases hs
  · cases hh

theorem frame (h : Tallied s n c) (hsound : Sound c) (hfits : s.Fits) (sink : σ) :
    Tallied s (n + 1) (c.runFrame sink).2.1 := by
  cases hh : c.halt with
  | some halt =>
    rw [runFrame, hh]
    exact h.succ
  | none =>
    obtain rfl := h.settings
    obtain ⟨hsettings, hsnapshot⟩ := c.runFrame_settings sink
    have htotal : (Console.frame c sink).2.machine.cpu.totalCycles ≤
        Cpu.interruptCycles + (n + 1) * c.settings.mostCycles := by
      have := frame_total_le hsound.stall sink
      have := h.machine.total
      rw [Nat.succ_mul]
      omega
    refine ⟨hsettings, ⟨?_, ?_⟩, ?_, ?_⟩
    · rwa [runFrame_of_not_halted hh, conclude_machine]
    · rw [runFrame_of_not_halted hh, conclude_raster]
      exact hsound.frame_elapsed_le hfits sink
    · rw [hsnapshot]
      exact h.succ.saved
    · rw [runFrame_of_not_halted hh]
      intro halt hhalt
      rwa [conclude_halt hh hhalt]

theorem perform (h : Tallied s n c) (hc : Reachable c) (hfits : s.Fits) (op : Operation) :
    Tallied s (n + 1) (c.perform op) := by
  cases op with
  | frame sink => exact h.frame hc.sound hfits sink
  | reset => exact h.reset.succ
  | save =>
    refine Tallied.succ ⟨h.settings, h.machine, fun snapshot hs => ?_, h.halt⟩
    cases hs
    exact h.machine
  | restore =>
    obtain heq | ⟨snapshot, journal, hs, heq⟩ := c.perform_restore_eq
    · rw [heq]
      exact h.succ
    · rw [heq]
      refine Tallied.succ ⟨h.settings, h.saved snapshot hs, fun _ hnone => ?_, h.halt⟩
      cases hnone
  | arm code =>
    obtain ⟨genie, journal, heq⟩ := c.perform_arm_eq code
    rw [heq]
    exact Tallied.succ ⟨h.settings, h.machine, h.saved, h.halt⟩
  | disarm =>
    obtain ⟨genie, journal, heq⟩ := c.perform_disarm_eq
    rw [heq]
    exact Tallied.succ ⟨h.settings, h.machine, h.saved, h.halt⟩
  | connect socket pad => exact Tallied.succ ⟨h.settings, h.machine, h.saved, h.halt⟩
  | disconnect socket => exact Tallied.succ ⟨h.settings, h.machine, h.saved, h.halt⟩

theorem after (h : Tallied s 0 c) (hc : Reachable c) (hfits : s.Fits) (ops : List Operation) :
    Tallied s ops.length (c.after ops) := by
  -- from the end of the list, since the last operation is made on what the others have come to
  induction ops using List.reverseRecOn with
  | nil => exact h
  | append_singleton ops op ih =>
    rw [after_concat, List.length_append]
    exact ih.perform (hc.after ops) hfits op

end Tallied

/-- A console whose counters fit into their words. -/
structure Roomy (c : Console κ) : Prop where
  stall : c.machine.bus.stall = 0
  total : c.machine.cpu.totalCycles < UInt64.size
  elapsed : c.raster.beam.elapsed < UInt32.size
  halt : ∀ halt, c.halt = some halt → halt.cycles < UInt64.size
  /-- while the next picture is drawn, there is room at every moment, and for the tick to which the
  drawing has to catch up -/
  moments {σ : Type} [PixelSink σ] (sink : σ) (t : Moment κ σ) (h : c.Passes sink t) :
    t.drawing.machine.bus.stall = 0 ∧ t.drawing.elapsed < UInt32.size ∧
      (t.stage = .catching → t.drawing.tickOfCpu < UInt32.size)

/-- **There is room for the counters**, whatever is asked of a console. -/
theorem roomy_after {cart : κ} {journal : Journal} (h : build cart s journal = .ok c)
    (hfits : s.Fits) {ops : List Operation} (hops : ops.length ≤ 0x80000000) :
    Roomy (c.after ops) := by
  have hc : Reachable (c.after ops) := (Reachable.build h).after ops
  have htallied := (Tallied.of_build h).after (.build h) hfits ops
  have htotal : Cpu.interruptCycles + ops.length * s.mostCycles < UInt64.size := by
    have hmost : s.mostCycles ≤ 5726624099 := by
      have hrender : 3 * s.renderCycles < 4294967296 := hfits.render
      have hvblank : s.vblankCycles < 4294967296 := hfits.vblank
      unfold Settings.mostCycles
      omega
    have := Nat.mul_le_mul hops hmost
    simp only [Cpu.interruptCycles, UInt64.size]
    omega
  have hticks : s.renderTicks < UInt32.size := by
    rw [Settings.renderTicks, Nat.mul_comm]
    exact hfits.render
  obtain rfl := htallied.settings
  refine ⟨hc.sound.stall, Nat.lt_of_le_of_lt htallied.machine.total htotal,
    Nat.lt_of_le_of_lt htallied.machine.elapsed hticks,
    fun halt hh => Nat.lt_of_le_of_lt (htallied.halt halt hh) htotal, fun sink t ht => ?_⟩
  have hcounted := Moment.Passes.counted ht hfits.render (hc.sound.counted sink)
  refine ⟨hcounted.stall, Nat.lt_of_le_of_lt hcounted.within hticks, fun hcatching => ?_⟩
  exact Nat.lt_trans (Nat.mul_lt_mul_of_pos_right (hcounted.catching hcatching) (by decide)) hticks

end Console

end Famicom
