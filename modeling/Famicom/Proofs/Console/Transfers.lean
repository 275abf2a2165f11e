import Famicom.Proofs.Console.Lockstep

/-!
# Transfers do not wait for the picture

A transfer fills the sprite list, but it is not an access to a register of the picture unit, and the
instruction that starts it is not taken back for it.  The lines that the drawing has yet to catch up
with are then drawn from the new list, also those that the beam has passed long before.

The idea: between the catch-ups the machine runs ahead.  So the drawing stands where the machine
does only where it has just caught up, before an instruction that was taken back, and where nothing
has run yet (`Moment.Passes.current_iff`).
-/

namespace Famicom

open Picture Processor

namespace Machine

variable {κ : Type} [Cartridge κ] {m : Machine κ}

/-- A step that gets as far as starting a transfer is not refused any more. -/
theorem step_ne_waits_of_transfer {byte : UInt8} (h : .write 0x4014 byte ∈ m.accesses) :
    m.step.1 ≠ .waits := by
  intro hw
  obtain ⟨w, hattempt, -⟩ := attempt_of_waits (Prod.ext hw rfl : m.step = (.waits, m.step.2))
  rcases hattempt.near _ h with hzero | ⟨i, -, hread⟩
  · rw [show (Access.write 0x4014 byte).address = 0x4014 from rfl] at hzero
    exact absurd hzero (by decide)
  · cases hread

end Machine

namespace Moment

variable {κ σ : Type} [Cartridge κ] [PixelSink σ] {r : Nat} {t t' : Moment κ σ} {d d₀ : Drawing κ σ}

/-! ### Where the drawing stands -/

/-- Where no instruction is to run again, a machine that has run is ahead of the drawing. -/
def Ahead (t : Moment κ σ) : Prop :=
  t.stage = .running → t.drawing.machine.cpu.sync.retrying = false →
    t.drawing.machine.cpu.cycles.toNat ≠ 0 → t.drawing.elapsed < t.drawing.tickOfCpu

/-- Whatever leads to a moment puts the machine ahead, or the instruction in hand is to run
again. -/
theorem InStep.ahead_next (h : InStep r t) (hr : 3 * r < UInt32.size) (ht : t.next r = some t') :
    Ahead t' := by
  obtain ⟨s, d⟩ := t
  cases s with
  | running =>
    rw [Moment.next, Drawing.onMachine_eq] at ht
    split at ht
    · rename_i hlt
      rcases hs : d.machine.step with ⟨p, m⟩
      rw [hs] at ht
      cases p with
      | ran n =>
        cases ht
        intro _ _ _
        have hbehind : d.elapsed ≤ d.machine.cpu.cycles.toNat * 3 := h.behind
        have htwo : 2 ≤ n := (Machine.ran_of_step hs).two_le
        have hcycles : m.cpu.cycles.toNat = d.machine.cpu.cycles.toNat + n :=
          (h.toCounted.ran hr hlt hs).1
        show d.elapsed < m.cpu.cycles.toNat * 3
        omega
      | waits =>
        cases ht
        intro hstage
        cases hstage
      | halted pc => cases ht
    · cases ht
      intro hstage
      cases hstage
  | catching =>
    have hretry : d.machine.cpu.sync.retrying = true := h.fits.1
    rw [Moment.next] at ht
    split at ht <;> cases ht
    · intro hstage
      cases hstage
    · intro _ hnot
      rw [show d.noteCaughtUp.machine.cpu.sync.retrying = true from hretry] at hnot
      cases hnot
  | completing =>
    rw [Moment.next] at ht
    split at ht <;> cases ht
    intro hstage
    cases hstage

/-- **Where the drawing stands at the processor's tick.**  It does so before an instruction that was
taken back, and at the beginning of the frame. -/
theorem Passes.current_iff (h : Passes r d₀ ⟨.running, d⟩) (hr : 3 * r < UInt32.size)
    (h₀ : InStep r ⟨.running, d₀⟩) (hstart : d₀.machine.cpu.cycles = 0) :
    d.elapsed = d.tickOfCpu ↔
      d.machine.cpu.sync.retrying = true ∨ d.machine.cpu.cycles = 0 := by
  have hin := h.inStep hr h₀
  have hahead : Ahead ⟨.running, d⟩ := by
    cases h with
    | start =>
      intro _ _ hcycles
      rw [hstart] at hcycles
      exact absurd rfl hcycles
    | next hpasses ht => exact (hpasses.inStep hr h₀).ahead_next hr ht
  constructor
  · intro hcurrent
    cases hretry : d.machine.cpu.sync.retrying with
    | true => exact .inl rfl
    | false =>
      by_cases hcycles : d.machine.cpu.cycles = 0
      · exact .inr hcycles
      · have hlt := hahead rfl hretry fun h => hcycles (UInt32.toNat_inj.mp h)
        exact absurd hcurrent (Nat.ne_of_lt hlt)
  · rintro (hretry | hcycles)
    · exact (hin.fits hretry).1
    · have hbehind : d.elapsed ≤ d.machine.cpu.cycles.toNat * 3 := hin.behind
      rw [hcycles] at hbehind
      show d.elapsed = d.machine.cpu.cycles.toNat * 3
      rw [hcycles]
      exact Nat.le_zero.mp hbehind

/-! ### What is drawn later -/

theorem elapsed_le_next (ht : t.next r = some t') : t.drawing.elapsed ≤ t'.drawing.elapsed := by
  obtain ⟨s, d⟩ := t
  cases s with
  | running =>
    rw [Moment.next, Drawing.onMachine_eq] at ht
    split at ht
    · rcases hs : d.machine.step with ⟨p, m⟩
      rw [hs] at ht
      cases p <;> cases ht <;> exact Nat.le_refl _
    · cases ht
      exact Nat.le_refl _
  | catching =>
    rw [Moment.next] at ht
    split at ht <;> cases ht
    · exact Nat.le_of_lt (by rw [Drawing.ticks_elapsed]; exact Nat.lt_succ_self _)
    · exact Nat.le_refl _
  | completing =>
    rw [Moment.next] at ht
    split at ht <;> cases ht
    exact Nat.le_of_lt (by rw [Drawing.ticks_elapsed]; exact Nat.lt_succ_self _)

/-- What has been drawn stays drawn. -/
theorem elapsed_le_after {n : Nat} (h : after r n t = some t') :
    t.drawing.elapsed ≤ t'.drawing.elapsed := by
  induction n generalizing t' with
  | zero =>
    cases h
    exact Nat.le_refl _
  | succ n ih =>
    obtain ⟨t₁, h₁, hnext⟩ := Option.bind_eq_some_iff.mp h
    exact Nat.le_trans (ih h₁) (elapsed_le_next hnext)

theorem passes_of_after {n : Nat} (h : after r n ⟨.running, d₀⟩ = some t) : Passes r d₀ t := by
  induction n generalizing t with
  | zero =>
    cases h
    exact .start
  | succ n ih =>
    obtain ⟨t₁, h₁, hnext⟩ := Option.bind_eq_some_iff.mp h
    exact (ih h₁).next hnext

end Moment

namespace Console

variable {κ σ : Type} [Cartridge κ] [PixelSink σ] {c : Console κ} {d : Drawing κ σ}

/-- **When a transfer is on time.**  The instruction that starts it is not refused, the drawing is
not ahead of it, and every tick drawn from then on comes after those drawn so far.  But the drawing
has come to the instruction exactly if it was taken back for another access, or is the first of the
frame. -/
theorem Reachable.transfer_onTime_iff (hc : Reachable c) (hs : c.settings.synchronised = true)
    (hr : 3 * c.settings.renderCycles < UInt32.size) (sink : σ)
    (h : c.Passes sink ⟨.running, d⟩) {byte : UInt8}
    (htransfer : .write 0x4014 byte ∈ d.machine.accesses) :
    d.machine.step.1 ≠ .waits ∧ d.elapsed ≤ d.tickOfCpu ∧
      (∀ n t, Moment.after c.settings.renderCycles n ⟨.running, d⟩ = some t →
        d.elapsed ≤ t.drawing.elapsed) ∧
      (d.elapsed = d.tickOfCpu ↔
        d.machine.cpu.sync.retrying = true ∨ d.machine.cpu.cycles = 0) := by
  have h₀ := hc.sound.opening hs sink
  refine ⟨Machine.step_ne_waits_of_transfer htransfer, (h.inStep hr h₀).behind, ?_,
    h.current_iff hr h₀ rfl⟩
  intro n t ht
  exact Moment.elapsed_le_after ht

end Console

/-! ### A transfer that comes too early -/

/-- A cartridge whose program fills the sprite list from an empty page, then clears it, and stays
where it is. -/
inductive Sweep where
  | sweep

namespace Sweep

/-- `STA $4014`, `LDA #$90`, `STA $4014`, `JMP` to itself. -/
def program : List UInt8 := [0x8D, 0x14, 0x40, 0xA9, 0x90, 0x8D, 0x14, 0x40, 0x4C, 0x08, 0x80]

def byte (address : UInt16) : UInt8 :=
  if address = 0xFFFC then 0
  else if address = 0xFFFD then 0x80
  else if 0x8000 ≤ address then program.getD (address.toNat - 0x8000) 0xFF
  else 0

instance : Cartridge Sweep where
  read _ := byte
  write cart _ _ := cart
  readPattern _ _ := 0
  writePattern cart _ _ := cart
  layout _ := .horizontal
  reset cart := cart

end Sweep

namespace Console

def sweeping : Console Sweep :=
  reset { machine := { cpu := {}, bus := .plug .sweep }, settings := { renderCycles := 519 } }

theorem sweeping_reachable : sweeping.Reachable := by
  refine .build (show Console.build Sweep.sweep { renderCycles := 519 } = _ from ?_)
  rfl

/-- The second transfer starts 518 cycles into the frame, when nothing has been drawn yet. -/
theorem sweeping_second_transfer :
    ∃ d, sweeping.Passes Screen.blank ⟨.running, d⟩ ∧
      .write 0x4014 0x90 ∈ d.machine.accesses ∧ d.tickOfCpu = 1554 ∧ d.elapsed = 0 ∧
      d.machine.bus.video.memory.sprite 0 = ⟨0, 0, 0, 0⟩ ∧
      let d' := (d.onMachine Machine.step).2;
      d'.elapsed = 0 ∧ d'.machine.bus.video.memory.sprite 0 = ⟨0xFF, 0xFF, 0xFF, 0xFF⟩ := by
  have hall : (Moment.after 519 2 ⟨.running, sweeping.opening Screen.blank⟩).any (fun t =>
      t.stage = .running ∧ .write 0x4014 0x90 ∈ t.drawing.machine.accesses ∧
        t.drawing.tickOfCpu = 1554 ∧ t.drawing.elapsed = 0 ∧
        t.drawing.machine.bus.video.memory.sprite 0 = ⟨0, 0, 0, 0⟩ ∧
        let d' := (t.drawing.onMachine Machine.step).2;
        d'.elapsed = 0 ∧ d'.machine.bus.video.memory.sprite 0 = ⟨0xFF, 0xFF, 0xFF, 0xFF⟩) =
      true := by decide +kernel
  obtain ⟨⟨s, d⟩, ht, hd⟩ := (Option.any_eq_true _ _).mp hall
  simp only [decide_eq_true_eq] at hd
  obtain ⟨rfl, hd⟩ := hd
  exact ⟨d, Moment.passes_of_after ht, hd⟩

theorem sweeping_transfer_onTime_iff :
    sweeping.Reachable ∧ sweeping.settings.synchronised = true ∧
      3 * sweeping.settings.renderCycles < UInt32.size ∧
      ∃ d, sweeping.Passes Screen.blank ⟨.running, d⟩ ∧
        .write 0x4014 0x90 ∈ d.machine.accesses ∧ d.machine.step.1 ≠ .waits ∧
        ¬ (d.machine.cpu.sync.retrying = true ∨ d.machine.cpu.cycles = 0) := by
  obtain ⟨d, hpasses, htransfer, htick, helapsed, -⟩ := sweeping_second_transfer
  obtain ⟨hne, -, -, hiff⟩ := Reachable.transfer_onTime_iff sweeping_reachable rfl (by decide)
    Screen.blank hpasses htransfer
  refine ⟨sweeping_reachable, rfl, by decide, d, hpasses, htransfer, hne, fun h => ?_⟩
  have hcurrent := hiff.mpr h
  omega

/-- The first three lines are searched for sprites in the ticks before the second transfer, but they
are drawn from the list that it leaves. -/
theorem sweeping_transfers_early :
    sweeping.Reachable ∧ sweeping.settings.synchronised = true ∧
      ∃ d, sweeping.Passes Screen.blank ⟨.running, d⟩ ∧
        .write 0x4014 0x90 ∈ d.machine.accesses ∧ d.tickOfCpu = 1554 ∧ d.elapsed = 0 ∧
        d.machine.bus.video.memory.sprite 0 = ⟨0, 0, 0, 0⟩ ∧
        let d' := (d.onMachine Machine.step).2;
        d'.elapsed = 0 ∧ d'.machine.bus.video.memory.sprite 0 = ⟨0xFF, 0xFF, 0xFF, 0xFF⟩ :=
  ⟨sweeping_reachable, rfl, sweeping_second_transfer⟩

end Console

end Famicom
