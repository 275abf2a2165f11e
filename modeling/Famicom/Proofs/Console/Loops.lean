import Famicom.Proofs.Console.Reachable

/-!
# The loops of a frame

A frame is driven by two loops.  The first lets the machine run in bursts, each with the budget of
cycles that are left of its phase, and draws where a burst was cut short; the second is one burst
more, with nothing to draw.  `Place.next` is what the loops do, turn by turn, and `Place.outcome`
what a frame comes to from a place in them.

The loops end, after a number of turns that is known beforehand (`Kept.exists_ended`): a turn either
passes cycles or comes nearer to a step that does, because a step that was taken back is not taken
back again (`Kept.next_rank`).  On the way nothing is counted that has no room in 32 bits, and the
last step of the first loop goes at most 519 cycles beyond its end (`Reachable.frame_bounded`).
-/

namespace Famicom

open Picture Processor

/-- A place in the loops of a frame. -/
inductive Place (κ σ : Type) where
  /-- the first loop is about to ask whether cycles are left -/
  | outer (d : Drawing κ σ)
  /-- in a burst of the first loop, of which `ran` cycles have run -/
  | burst (budget ran : Nat) (d : Drawing κ σ)
  /-- in the burst of the second phase, of which `ran` cycles have run -/
  | rest (ran : Nat) (d : Drawing κ σ)
  | ended (outcome : Outcome) (d : Drawing κ σ)

namespace Place

variable {κ σ : Type} {s : Settings} {t t' : Place κ σ} {d d₀ : Drawing κ σ}

def drawing : Place κ σ → Drawing κ σ
  | outer d | burst _ _ d | rest _ d | ended _ d => d

section Turns

variable [Cartridge κ] [PixelSink σ]

/-- One turn of the loops. -/
def next (s : Settings) : Place κ σ → Option (Place κ σ)
  | outer d =>
    if d.machine.cpu.cycles.toNat < s.renderCycles then
      some (burst (s.renderCycles - d.machine.cpu.cycles.toNat) 0 d)
    else some (rest 0 (d.endRender s.renderTicks))
  | burst budget ran d =>
    if ran < budget then
      match d.onMachine Machine.step with
      | (.ran n, d) => some (burst budget (ran + n) d)
      | (.waits, d) => some (outer d.catchUp)
      | (.halted pc, d) => some (ended (.halted pc) d)
    else some (outer d)
  | rest ran d =>
    if ran < s.vblankCycles then
      match d.onMachine Machine.step with
      | (.ran n, d) => some (rest (ran + n) d)
      | (.waits, d) => some (ended .waits d)
      | (.halted pc, d) => some (ended (.halted pc) d)
    else some (ended (.completed (ran - s.vblankCycles)) d)
  | ended _ _ => none

def after (s : Settings) : Nat → Place κ σ → Option (Place κ σ)
  | 0, t => some t
  | n + 1, t => (t.next s).bind (after s n)

/-- The places of a frame that begins with `d₀`. -/
inductive Visits (s : Settings) (d₀ : Drawing κ σ) : Place κ σ → Prop
  | start : Visits s d₀ (outer d₀)
  | next {t t' : Place κ σ} (h : Visits s d₀ t) (h' : t.next s = some t') : Visits s d₀ t'

/-- The second phase, after the first has come to an outcome. -/
def rested (s : Settings) : Outcome × Drawing κ σ → Outcome × Drawing κ σ
  | (.halted pc, d) => (.halted pc, d)
  | (_, d) => (d.endRender s.renderTicks).onMachine fun m => m.burst s.vblankCycles

/-- What a frame comes to from a place on. -/
def outcome (s : Settings) : Place κ σ → Outcome × Drawing κ σ
  | outer d =>
    rested s (walk Drawing.step (s.renderCycles - d.machine.cpu.cycles.toNat)
      (d.machine.cpu.cycles.toNat - s.renderCycles) d)
  | burst budget ran d => rested s (walk Drawing.step (budget - ran) (ran - budget) d)
  | rest ran d =>
    d.onMachine fun m => walk Machine.step (s.vblankCycles - ran) (ran - s.vblankCycles) m
  | ended o d => (o, d)

end Turns

/-! ### The invariant -/

/-- What a place says about the counters and about the instruction in hand. -/
def Fits (s : Settings) : Place κ σ → Prop
  | outer d => d.machine.cpu.cycles.toNat ≤ s.renderCycles + 519 ∧
    (d.machine.cpu.sync.retrying = true → d.machine.cpu.cycles.toNat < s.renderCycles)
  | burst budget ran d => d.machine.cpu.cycles.toNat + budget = s.renderCycles + ran ∧
    d.machine.cpu.cycles.toNat ≤ s.renderCycles + 519 ∧
    (d.machine.cpu.sync.retrying = true → ran < budget)
  | rest _ d => d.machine.cpu.sync = {}
  | ended o _ => o ≠ .waits

/-- What every turn keeps. -/
structure Kept (s : Settings) (t : Place κ σ) : Prop where
  stall : t.drawing.machine.bus.stall = 0
  fits : Fits s t

namespace Kept

variable {budget ran : Nat}

theorem outer_of_burst (h : Kept s (burst budget ran d)) : Kept s (outer d) := by
  obtain ⟨hcount, hle, hretry⟩ := h.fits
  refine ⟨h.stall, hle, ?_⟩
  intro hr
  have := hretry hr
  omega

variable [Cartridge κ]

theorem burst_ran (h : Kept s (burst budget ran d)) (hr : 3 * s.renderCycles < UInt32.size)
    (hlt : ran < budget) {n : Nat} {m : Machine κ} (hs : d.machine.step = (.ran n, m)) :
    m.cpu.cycles.toNat = d.machine.cpu.cycles.toNat + n ∧
      Kept s (burst budget (ran + n) { d with machine := m }) := by
  obtain ⟨hcount, -, -⟩ := h.fits
  have hran := Machine.ran_of_step hs
  obtain ⟨hcycles, hle⟩ := hran.counted h.stall hr (by omega)
  refine ⟨hcycles, hran.stall, ?_, hle, ?_⟩
  · show m.cpu.cycles.toNat + budget = s.renderCycles + (ran + n)
    omega
  · intro hretry
    rw [show (Drawing.machine { d with machine := m }).cpu.sync = _ from hran.sync] at hretry
    cases hretry

variable [PixelSink σ]

theorem burst_waits (h : Kept s (burst budget ran d)) (hlt : ran < budget) {m : Machine κ}
    (hs : d.machine.step = (.waits, m)) :
    Kept s (outer ({ d with machine := m } : Drawing κ σ).catchUp) := by
  obtain ⟨hcount, hle, -⟩ := h.fits
  have hcycles : m.cpu.cycles = d.machine.cpu.cycles := by rw [Machine.cpu_of_waits hs]
  refine ⟨?_, ?_, ?_⟩
  · show m.bus.stall = 0
    rw [Machine.bus_of_waits hs]
    exact h.stall
  · show m.cpu.cycles.toNat ≤ s.renderCycles + 519
    rwa [hcycles]
  · intro _
    show m.cpu.cycles.toNat < s.renderCycles
    rw [hcycles]
    omega

/-- The second loop begins with nothing to be run again. -/
theorem endRender_sync (h : Kept s (outer d))
    (hge : ¬ d.machine.cpu.cycles.toNat < s.renderCycles) (target : Nat) :
    (d.endRender target).machine.cpu.sync = {} := by
  have hretry : d.machine.cpu.sync.retrying = false := by
    cases hr : d.machine.cpu.sync.retrying with
    | false => rfl
    | true => exact absurd (h.fits.2 hr) hge
  show Sync.mk false d.machine.cpu.sync.retrying = {}
  rw [hretry]

theorem next (h : Kept s t) (hr : 3 * s.renderCycles < UInt32.size) (ht : t.next s = some t') :
    Kept s t' := by
  cases t with
  | outer d =>
    rw [Place.next] at ht
    split at ht <;> rename_i hlt <;> cases ht
    · have hle : d.machine.cpu.cycles.toNat ≤ s.renderCycles + 519 := h.fits.1
      refine ⟨h.stall, ?_, hle, ?_⟩
      · omega
      · intro _
        omega
    · exact ⟨h.stall, h.endRender_sync hlt _⟩
  | burst budget ran d =>
    rw [Place.next, Drawing.onMachine_eq] at ht
    split at ht
    · rename_i hlt
      rcases hs : d.machine.step with ⟨p, m⟩
      rw [hs] at ht
      cases p with
      | ran n =>
        cases ht
        exact (h.burst_ran hr hlt hs).2
      | waits =>
        cases ht
        exact h.burst_waits hlt hs
      | halted pc =>
        cases ht
        have hstall : d.machine.bus.stall = 0 := h.stall
        refine ⟨Nat.le_zero.mp ?_, by simp [Fits]⟩
        exact hstall ▸ (Machine.stopped_of_step hs).stall
    · cases ht
      exact h.outer_of_burst
  | rest ran d =>
    have hsync : d.machine.cpu.sync = {} := h.fits
    have hidle := Machine.step_idle hsync
    have hstall := Machine.step_stall h.stall
    rw [Place.next, Drawing.onMachine_eq] at ht
    split at ht
    · rcases hs : Machine.step d.machine with ⟨p, m⟩
      rw [hs] at ht
      rw [show drawing (rest ran d) = d from rfl, hs] at hstall
      rw [hs] at hidle
      cases p with
      | ran n =>
        cases ht
        exact ⟨hstall, hidle.2⟩
      | waits => exact absurd rfl hidle.1
      | halted pc =>
        cases ht
        exact ⟨hstall, by simp [Fits]⟩
    · cases ht
      exact ⟨h.stall, by simp [Fits]⟩
  | ended o d => cases ht

end Kept

variable [Cartridge κ] [PixelSink σ]

theorem Visits.kept (h : Visits s d₀ t) (hr : 3 * s.renderCycles < UInt32.size)
    (h₀ : Kept s (outer d₀)) : Kept s t := by
  induction h with
  | start => exact h₀
  | next _ ht ih => exact ih.next hr ht

/-! ### The loops end -/

/-- How far a place is from the end, at most: a cycle of the first phase counts for three turns,
since the step that passes it may be taken back once, and the loop asks again in between. -/
def rank (s : Settings) : Place κ σ → Nat
  | outer d =>
    3 * (s.renderCycles - d.machine.cpu.cycles.toNat) + s.vblankCycles +
      if d.machine.cpu.sync.retrying then 3
      else if d.machine.cpu.cycles.toNat < s.renderCycles then 5 else 2
  | burst budget ran d =>
    3 * (budget - ran) + s.vblankCycles + if d.machine.cpu.sync.retrying then 2 else 4
  | rest ran _ => s.vblankCycles - ran + 1
  | ended _ _ => 0

/-- Every turn comes nearer to the end. -/
theorem Kept.next_rank (h : Kept s t) (ht : t.next s = some t') : t'.rank s < t.rank s := by
  cases t with
  | outer d =>
    rw [Place.next] at ht
    split at ht <;> rename_i hlt <;> cases ht
    · simp only [rank, hlt, if_true]
      split <;> omega
    · simp only [rank, hlt, if_false]
      split <;> omega
  | burst budget ran d =>
    obtain ⟨hcount, -, hretry⟩ := h.fits
    rw [Place.next, Drawing.onMachine_eq] at ht
    split at ht
    · rename_i hlt
      rcases hs : d.machine.step with ⟨p, m⟩
      rw [hs] at ht
      cases p with
      | ran n =>
        cases ht
        have hran := Machine.ran_of_step hs
        have htwo := hran.two_le
        have hafter : m.cpu.sync.retrying = false := by rw [hran.sync]
        simp only [rank, hafter, Bool.false_eq_true, if_false]
        split <;> omega
      | waits =>
        cases ht
        have hcpu := Machine.cpu_of_waits hs
        have hsync := Machine.sync_of_waits hs
        have hcycles : m.cpu.cycles = d.machine.cpu.cycles := by rw [hcpu]
        have hafter : m.cpu.sync.retrying = true := by rw [hcpu]
        -- no cycle has passed, but an instruction is in hand now, and none was before
        show 3 * (s.renderCycles - m.cpu.cycles.toNat) + s.vblankCycles +
          (if m.cpu.sync.retrying then 3
            else if m.cpu.cycles.toNat < s.renderCycles then 5 else 2) < _
        simp only [rank, hcycles, hafter, hsync, if_true, Bool.false_eq_true, if_false]
        omega
      | halted pc =>
        cases ht
        simp only [rank]
        split <;> omega
    · rename_i hge
      cases ht
      -- the budget is spent, so the last step ran and left nothing to be run again
      have hr : d.machine.cpu.sync.retrying = false := by
        cases hr : d.machine.cpu.sync.retrying with
        | false => rfl
        | true => exact absurd (hretry hr) hge
      simp only [rank, hr, Bool.false_eq_true, if_false]
      split <;> omega
  | rest ran d =>
    rw [Place.next, Drawing.onMachine_eq] at ht
    split at ht
    · rcases hs : d.machine.step with ⟨p, m⟩
      rw [hs] at ht
      cases p with
      | ran n =>
        cases ht
        have htwo := (Machine.ran_of_step hs).two_le
        simp only [rank]
        omega
      | waits =>
        cases ht
        exact Nat.succ_pos _
      | halted pc =>
        cases ht
        exact Nat.succ_pos _
    · cases ht
      exact Nat.succ_pos _
  | ended o d => cases ht

theorem ended_of_next_eq_none (h : t.next s = none) : ∃ o d, t = ended o d := by
  cases t with
  | outer d =>
    rw [next] at h
    split at h <;> cases h
  | burst budget ran d =>
    rw [next] at h
    split at h
    · split at h <;> cases h
    · cases h
  | rest ran d =>
    rw [next] at h
    split at h
    · split at h <;> cases h
    · cases h
  | ended o d => exact ⟨o, d, rfl⟩

/-- **The loops end**, no later than the rank of the place says. -/
theorem Kept.exists_ended (h : Kept s t) (hr : 3 * s.renderCycles < UInt32.size) :
    ∃ n ≤ t.rank s, ∃ o d, after s n t = some (ended o d) := by
  -- on the rank, which the next place has less of
  obtain ⟨k, hk⟩ : ∃ k, t.rank s = k := ⟨_, rfl⟩
  induction k using Nat.strongRecOn generalizing t with
  | ind k ih =>
    cases ht : t.next s with
    | none =>
      obtain ⟨o, d, rfl⟩ := ended_of_next_eq_none ht
      exact ⟨0, Nat.zero_le _, o, d, rfl⟩
    | some t' =>
      have hrank := h.next_rank ht
      obtain ⟨n, hn, o, d, hended⟩ := ih (t'.rank s) (hk ▸ hrank) (h.next hr ht) rfl
      refine ⟨n + 1, Nat.le_trans (Nat.succ_le_succ hn) hrank, o, d, ?_⟩
      rw [after, ht, Option.bind_some, hended]

/-! ### What they come to -/

/-- A turn does not change what a frame comes to. -/
theorem Kept.outcome_next (h : Kept s t) (ht : t.next s = some t') :
    t'.outcome s = t.outcome s := by
  cases t with
  | outer d =>
    rw [Place.next] at ht
    split at ht <;> rename_i hlt <;> cases ht
    · rw [outcome, outcome, Nat.sub_zero, Nat.zero_sub,
        Nat.sub_eq_zero_of_le (Nat.le_of_lt hlt)]
    · rw [outcome, outcome, Nat.sub_zero, Nat.zero_sub,
        Nat.sub_eq_zero_of_le (Nat.le_of_not_lt hlt)]
      rfl
  | burst budget ran d =>
    obtain ⟨hcount, -, -⟩ := h.fits
    rw [Place.next, Drawing.onMachine_eq] at ht
    split at ht
    · rename_i hlt
      rcases hs : d.machine.step with ⟨p, m⟩
      rw [hs] at ht
      cases p with
      | ran n =>
        cases ht
        have hstep : d.step = (.ran n, { d with machine := m }) := by
          rw [Drawing.step_of_ne_waits (by rw [hs]; simp), hs]
        have hpos : 0 < n := Nat.lt_of_lt_of_le Nat.two_pos (Machine.ran_of_step hs).two_le
        exact congrArg (rested s) (walk_of_ran hstep hlt hpos).symm
      | waits =>
        cases ht
        have hcpu := Machine.cpu_of_waits hs
        -- the step that is made again is the first of the walk that is left
        have hagain : Drawing.step (Drawing.catchUp { d with machine := m }) = d.step := by
          rw [Drawing.step_of_waits hs, Drawing.step_of_ne_waits]
          · rfl
          · refine Machine.step_ne_waits ?_
            show m.cpu.sync.mustWait = false
            rw [hcpu]
            rfl
        have hcycles : (Drawing.catchUp { d with machine := m }).machine.cpu.cycles =
            d.machine.cpu.cycles := by
          show m.cpu.cycles = _
          rw [hcpu]
        obtain ⟨k, hk⟩ : ∃ k, budget - ran = k + 1 := ⟨budget - ran - 1, by omega⟩
        rw [outcome, outcome, hcycles, hk, Nat.sub_eq_zero_of_le (Nat.le_of_lt hlt),
          show s.renderCycles - d.machine.cpu.cycles.toNat = k + 1 by omega,
          show d.machine.cpu.cycles.toNat - s.renderCycles = 0 by omega]
        exact congrArg (rested s) (walk_succ_congr hagain k)
      | halted pc =>
        cases ht
        have hstep : d.step = (.halted pc, { d with machine := m }) := by
          rw [Drawing.step_of_ne_waits (by rw [hs]; simp), hs]
        obtain ⟨k, hk⟩ : ∃ k, budget - ran = k + 1 := ⟨budget - ran - 1, by omega⟩
        rw [outcome, outcome, hk, Nat.sub_eq_zero_of_le (Nat.le_of_lt hlt), walk, hstep]
        rfl
    · rename_i hge
      cases ht
      rw [outcome, outcome]
      congr 2 <;> omega
  | rest ran d =>
    rw [Place.next, Drawing.onMachine_eq] at ht
    split at ht
    · rename_i hlt
      obtain ⟨k, hk⟩ : ∃ k, s.vblankCycles - ran = k + 1 :=
        ⟨s.vblankCycles - ran - 1, by omega⟩
      rcases hs : d.machine.step with ⟨p, m⟩
      rw [hs] at ht
      rw [outcome, Drawing.onMachine_eq]
      cases p with
      | ran n =>
        cases ht
        have hpos : 0 < n := Nat.lt_of_lt_of_le Nat.two_pos (Machine.ran_of_step hs).two_le
        rw [walk_of_ran hs hlt hpos]
        rfl
      | waits =>
        cases ht
        rw [hk, Nat.sub_eq_zero_of_le (Nat.le_of_lt hlt), walk, hs]
        rfl
      | halted pc =>
        cases ht
        rw [hk, Nat.sub_eq_zero_of_le (Nat.le_of_lt hlt), walk, hs]
        rfl
    · rename_i hge
      cases ht
      rw [outcome, outcome, Nat.sub_eq_zero_of_le (Nat.le_of_not_lt hge)]
      rfl
  | ended o d => cases ht

theorem Kept.after (h : Kept s t) (hr : 3 * s.renderCycles < UInt32.size) {n : Nat}
    (hn : Place.after s n t = some t') : Kept s t' ∧ t'.outcome s = t.outcome s := by
  induction n generalizing t with
  | zero =>
    cases hn
    exact ⟨h, rfl⟩
  | succ n ih =>
    obtain ⟨t₁, ht, hrest⟩ := Option.bind_eq_some_iff.mp hn
    obtain ⟨hkept, houtcome⟩ := ih (h.next hr ht) hrest
    exact ⟨hkept, houtcome.trans (h.outcome_next ht)⟩

end Place

namespace Console

variable {κ σ : Type} {c : Console κ}

theorem Sound.outer (h : Sound c) (sink : σ) :
    Place.Kept c.settings (.outer (c.opening sink)) where
  stall := h.stall
  fits := ⟨Nat.zero_le _, fun hretry => Nat.pos_of_ne_zero (h.retrying hretry)⟩

variable [Cartridge κ] [PixelSink σ]

/-- The loops come to what the two phases come to. -/
theorem outcome_outer (c : Console κ) (sink : σ) :
    Place.outcome c.settings (.outer (c.opening sink)) = c.frame sink := by
  have hcycles : (c.opening sink).machine.cpu.cycles.toNat = 0 := rfl
  rw [Place.outcome, hcycles, Nat.sub_zero, Nat.zero_sub, frame]
  show Place.rested c.settings (c.rendering sink) = _
  split <;> rename_i heq <;> rw [heq]
  · rfl
  · rename_i o d hne
    cases o with
    | completed excess => rfl
    | waits => rfl
    | halted pc => exact absurd rfl (hne pc)

/-- The places that a frame comes to. -/
abbrev Visits (c : Console κ) (sink : σ) : Place κ σ → Prop :=
  Place.Visits c.settings (c.opening sink)

/-- A frame whose loops end, without counting further than 32 bits go. -/
structure Bounded (c : Console κ) (sink : σ) : Prop where
  /-- a step that runs takes two cycles at least and 520 at most -/
  cost (t : Place κ σ) (h : c.Visits sink t) (n : Nat) (m : Machine κ)
    (hs : t.drawing.machine.step = (.ran n, m)) : 2 ≤ n ∧ n ≤ 520
  /-- after a step that was taken back, the next one is not -/
  once (budget ran : Nat) (d : Drawing κ σ) (h : c.Visits sink (.burst budget ran d)) (m : Machine κ)
    (hs : d.machine.step = (.waits, m)) :
    (Drawing.catchUp { d with machine := m }).machine.step.1 ≠ .waits
  /-- a burst gets the cycles that are left of the phase, and the counter tells what has run -/
  counts (budget ran : Nat) (d : Drawing κ σ) (h : c.Visits sink (.burst budget ran d)) :
    d.machine.cpu.cycles.toNat + budget = c.settings.renderCycles + ran
  /-- the counter does not wrap around in a burst -/
  room (budget ran : Nat) (d : Drawing κ σ) (h : c.Visits sink (.burst budget ran d))
    (hlt : ran < budget) (n : Nat) (m : Machine κ) (hs : d.machine.step = (.ran n, m)) :
    m.cpu.cycles.toNat = d.machine.cpu.cycles.toNat + n
  /-- nor does the tick to which a burst that was cut short has to be drawn -/
  ticks (budget ran : Nat) (d : Drawing κ σ) (h : c.Visits sink (.burst budget ran d))
    (hlt : ran < budget) : d.tickOfCpu < UInt32.size
  /-- the last step of the first loop ends at most 519 cycles late -/
  late (d : Drawing κ σ) (h : c.Visits sink (.outer d))
    (hge : ¬ d.machine.cpu.cycles.toNat < c.settings.renderCycles) :
    c.settings.renderCycles ≤ d.machine.cpu.cycles.toNat ∧
      d.machine.cpu.cycles.toNat ≤ c.settings.renderCycles + 519
  /-- the loops end with what the frame comes to -/
  ends : ∃ n ≤ 3 * c.settings.renderCycles + c.settings.vblankCycles + 5, ∃ o d,
    Place.after c.settings n (.outer (c.opening sink)) = some (.ended o d) ∧ o ≠ .waits ∧
      c.frame sink = (o, d)

/-- **Frames end.**  The loops of a frame come to an end whatever was done to the console before and
whatever it runs, as long as the ticks of a picture can be counted. -/
theorem Reachable.frame_bounded (hc : Reachable c)
    (hr : 3 * c.settings.renderCycles < UInt32.size) (sink : σ) : c.Bounded sink := by
  have h₀ := hc.sound.outer sink
  have hkept {t : Place κ σ} (h : c.Visits sink t) : t.Kept c.settings := h.kept hr h₀
  refine ⟨?_, ?_, ?_, ?_, ?_, ?_, ?_⟩
  · intro t h n m hs
    have hran := Machine.ran_of_step hs
    refine ⟨hran.two_le, ?_⟩
    simpa [(hkept h).stall] using hran.le
  · intro budget ran d h m hs
    refine Machine.step_ne_waits ?_
    show m.cpu.sync.mustWait = false
    rw [Machine.cpu_of_waits hs]
    rfl
  · intro budget ran d h
    exact (hkept h).fits.1
  · intro budget ran d h hlt n m hs
    exact ((hkept h).burst_ran hr hlt hs).1
  · intro budget ran d h hlt
    obtain ⟨hcount, -, -⟩ := (hkept h).fits
    show d.machine.cpu.cycles.toNat * 3 < UInt32.size
    omega
  · intro d h hge
    exact ⟨Nat.le_of_not_lt hge, (hkept h).fits.1⟩
  · obtain ⟨n, hn, o, d, hended⟩ := h₀.exists_ended hr
    obtain ⟨hend, houtcome⟩ := h₀.after hr hended
    refine ⟨n, Nat.le_trans hn ?_, o, d, hended, hend.fits, ?_⟩
    · have hcycles : (c.opening sink).machine.cpu.cycles.toNat = 0 := rfl
      rw [Place.rank, hcycles, Nat.sub_zero]
      split
      · omega
      · split <;> omega
    · exact (c.outcome_outer sink).symm.trans houtcome.symm

theorem plain_bounded :
    (plain 0x20 27508).Reachable ∧ 3 * (plain 0x20 27508).settings.renderCycles < UInt32.size ∧
      (plain 0x20 27508).Bounded Screen.blank :=
  ⟨plain_reachable _ _, by decide,
    Reachable.frame_bounded (plain_reachable 0x20 27508) (by decide) Screen.blank⟩

end Console

end Famicom
