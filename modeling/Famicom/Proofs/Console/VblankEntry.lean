import Famicom.Proofs.Console.Moments
import Famicom.Proofs.Console.VblankHistory
import Famicom.Proofs.Machine.Entry
import Famicom.Proofs.Picture.Frame

/-!
# Vblank begins between the two phases

A picture of the usual length is complete one tick after the tick at which vblank begins.  The
drawing catches up with the beginning of an instruction at the latest, and the last instruction of
the first phase begins a cycle before its end, which is three ticks (`Moment.Passes.early`).  So
vblank begins while the picture is completed, when the machine is through (`Moment.Ends.vblank`).
Nothing is left then that was taken back, and the second phase begins with the interrupt, if it is
enabled (`Reachable.vblankOnTime`).
-/

namespace Famicom

open Picture Processor

/-! ### The tick at which vblank begins -/

/-- In a picture of the usual length there is one tick at which vblank begins. -/
theorem Picture.Beam.OnCourse.vblank_iff {b : Beam} (h : b.OnCourse) (hle : b.elapsed ≤ 82524) :
    b.line = 241 ∧ b.tick = 1 ↔ b.elapsed = vblankStart := by
  obtain ⟨hline, htick⟩ := h
  simp only [ticksPerLine, linesPerFrame, preparing, vblankStart] at *
  omega

namespace Drawing

variable {κ σ : Type} [Cartridge κ] [PixelSink σ] {d : Drawing κ σ}

theorem ticks_regs (h : d.raster.beam.OnCourse) (n : Nat) :
    (d.ticks n).regs.control = d.regs.control ∧
      (d.regs.nmiPending = true → (d.ticks n).regs.nmiPending = true) := by
  induction n with
  | zero => exact ⟨rfl, id⟩
  | succ n ih =>
    obtain ⟨hcontrol, hpending⟩ := ih
    have hline : (d.ticks n).raster.beam.next.line ≤ Beam.preparing :=
      (ticks_onCourse n h).next.line_le
    rw [ticks_add]
    refine ⟨?_, fun hn => ?_⟩
    · rw [tick_control hline, hcontrol]
    · rw [tick_nmiPending hline, hpending hn, Bool.true_or]

/-- Drawing past the beginning of vblank raises an interrupt, if interrupts are enabled. -/
theorem drawUntil_raises (h : d.raster.beam.OnCourse) (hlt : d.elapsed < Beam.vblankStart)
    {target : Nat} (hle : Beam.vblankStart ≤ target) (hn : d.regs.control.nmiEnabled = true) :
    (d.drawUntil target).regs.nmiPending = true := by
  obtain ⟨n, hn'⟩ : ∃ n, d.elapsed + n + 1 = Beam.vblankStart :=
    ⟨Beam.vblankStart - d.elapsed - 1, by omega⟩
  -- the tick at which vblank begins
  have hcourse : (d.ticks n).raster.beam.OnCourse := ticks_onCourse n h
  have hnext : (d.ticks n).raster.beam.next.elapsed = Beam.vblankStart := by
    rw [Beam.next_elapsed, ← hn']
    exact congrArg (· + 1) (ticks_elapsed d n)
  have harrives : (d.ticks n).Arrives 241 1 := by
    rw [arrives_iff, hcourse.next.vblank_iff, hnext]
    rw [hnext]
    decide
  have hraised : ((d.ticks n).ticks 1).regs.nmiPending = true := by
    rw [tick_nmiPending hcourse.next.line_le, raises, (ticks_regs h n).1, hn]
    simp [harrives]
  have htarget : d.drawUntil target = ((d.ticks n).ticks 1).ticks (target - Beam.vblankStart) := by
    have hcount : n + (1 + (target - Beam.vblankStart)) = target - d.elapsed := by omega
    rw [drawUntil_eq, ← ticks_add, ← ticks_add, hcount]
  rw [htarget]
  exact (ticks_regs (ticks_onCourse 1 hcourse) _).2 hraised

end Drawing

/-! ### When the machine is through -/

namespace Moment

variable {κ σ : Type} [Cartridge κ] [PixelSink σ] {r : Nat} {t t' : Moment κ σ} {d d₀ : Drawing κ σ}

/-- As long as the machine runs, the drawing is at least a cycle from the end of the phase. -/
def Early (r : Nat) (t : Moment κ σ) : Prop :=
  t.stage ≠ .completing → t.drawing.elapsed + ticksPerCycle ≤ r * ticksPerCycle

/-- The machine has not halted once it has run, and when its cycles are over nothing is left that
was taken back. -/
structure Clear (r : Nat) (t : Moment κ σ) : Prop where
  running : t.drawing.machine.cpu.cycles.toNat ≠ 0 → t.drawing.machine.cpu.halted = false
  settled : r ≤ t.drawing.machine.cpu.cycles.toNat → t.drawing.machine.cpu.sync.retrying = false

theorem Counted.early_next (hc : Counted r t) (ht : t.next r = some t') (h : Early r t) :
    Early r t' := by
  obtain ⟨s, d⟩ := t
  cases s with
  | running =>
    have hd : d.elapsed + ticksPerCycle ≤ r * ticksPerCycle := h (by simp)
    rw [Moment.next, Drawing.onMachine_eq] at ht
    split at ht
    · rcases hs : d.machine.step with ⟨p, m⟩
      rw [hs] at ht
      cases p <;> cases ht <;> exact fun _ => hd
    · cases ht
      exact fun hstage => absurd rfl hstage
  | catching =>
    have hd : d.elapsed + ticksPerCycle ≤ r * ticksPerCycle := h (by simp)
    rw [Moment.next] at ht
    split at ht <;> rename_i hlt <;> cases ht
    · -- it does not go beyond the instruction in hand, which begins before the end of the phase
      intro _
      have hcycles : d.machine.cpu.cycles.toNat < r := hc.catching rfl
      have hlt' : d.elapsed < d.machine.cpu.cycles.toNat * 3 := hlt
      rw [Drawing.ticks_elapsed]
      show d.elapsed + 1 + 3 ≤ r * 3
      omega
    · exact fun _ => hd
  | completing =>
    rw [Moment.next] at ht
    split at ht <;> cases ht
    exact fun hstage => absurd rfl hstage

theorem Clear.next (h : Clear r t) (ht : t.next r = some t') : Clear r t' := by
  obtain ⟨s, d⟩ := t
  cases s with
  | running =>
    rw [Moment.next, Drawing.onMachine_eq] at ht
    split at ht
    · rename_i hlt
      rcases hs : d.machine.step with ⟨p, m⟩
      rw [hs] at ht
      cases p with
      | ran n =>
        cases ht
        have hran := Machine.ran_of_step hs
        exact ⟨fun _ => hran.halted, fun _ => congrArg Sync.retrying hran.sync⟩
      | waits =>
        cases ht
        have hcpu := Machine.cpu_of_waits hs
        refine ⟨?_, fun hle => ?_⟩
        · show m.cpu.cycles.toNat ≠ 0 → m.cpu.halted = false
          rw [hcpu]
          exact h.running
        · have hle' : r ≤ m.cpu.cycles.toNat := hle
          rw [hcpu] at hle'
          exact absurd hlt (Nat.not_lt_of_le hle')
      | halted pc => cases ht
    · cases ht
      exact ⟨h.running, h.settled⟩
  | catching =>
    rw [Moment.next] at ht
    split at ht <;> cases ht <;> exact ⟨h.running, h.settled⟩
  | completing =>
    rw [Moment.next] at ht
    split at ht <;> cases ht
    exact ⟨h.running, h.settled⟩

theorem Passes.early (h : Passes r d₀ t) (hr : 3 * r < UInt32.size)
    (h₀ : Counted r ⟨.running, d₀⟩) (hstart : d₀.elapsed = 0) (hpos : 0 < r) : Early r t := by
  induction h with
  | start =>
    intro _
    show d₀.elapsed + 3 ≤ r * 3
    omega
  | next hpasses ht ih => exact (hpasses.counted hr h₀).early_next ht ih

theorem Passes.clear (h : Passes r d₀ t) (h₀ : Clear r ⟨.running, d₀⟩) : Clear r t := by
  induction h with
  | start => exact h₀
  | next _ ht ih => exact ih.next ht

section Usual

variable (hr : r = 27508) (h₀ : Counted r ⟨.running, d₀⟩) (hstart : d₀.elapsed = 0)
include hr h₀ hstart

/-- As long as the machine runs, vblank has not begun. -/
theorem Passes.before_vblank (h : Passes r d₀ t) (hs : t.stage ≠ .completing) :
    t.drawing.elapsed < Beam.vblankStart := by
  subst hr
  have hle : t.drawing.elapsed + 3 ≤ 27508 * 3 :=
    h.early (by decide) h₀ hstart (by decide) hs
  simp only [Beam.vblankStart]
  omega

/-- It begins while the picture is completed. -/
theorem Ends.vblank {excess : Nat} (h : Ends r d₀ (.completed excess, d)) :
    Passes r d₀ ⟨.completing, d.drawUntil Beam.vblankStart⟩ ∧
      (d.drawUntil Beam.vblankStart).raster.beam.line = 241 ∧
      (d.drawUntil Beam.vblankStart).raster.beam.tick = 1 := by
  have hbefore : d.elapsed < Beam.vblankStart := h.1.before_vblank hr h₀ hstart (by simp)
  have helapsed : (d.drawUntil Beam.vblankStart).elapsed = Beam.vblankStart := by
    rw [Drawing.drawUntil_elapsed]
    exact Nat.max_eq_right (Nat.le_of_lt hbefore)
  have hthrough : Passes r d₀ ⟨.completing, d.drawUntil Beam.vblankStart⟩ :=
    h.completed.draw (by rw [hr]; decide)
  have hcourse : (d.drawUntil Beam.vblankStart).raster.beam.OnCourse :=
    (hthrough.counted (by rw [hr]; decide) h₀).onCourse
  refine ⟨hthrough, (hcourse.vblank_iff ?_).mpr helapsed⟩
  rw [show Beam.elapsed _ = Beam.vblankStart from helapsed]
  decide

theorem Ends.nmiDue (hclear : Clear r ⟨.running, d₀⟩) {excess : Nat}
    (h : Ends r d₀ (.completed excess, d)) (hn : d.regs.control.nmiEnabled = true) :
    (d.endRender (r * ticksPerCycle)).machine.nmiDue = true := by
  obtain ⟨hpasses, hcycles⟩ := h
  have hretry : d.machine.cpu.sync.retrying = false := by
    refine (hpasses.clear hclear).settled ?_
    show r ≤ d.machine.cpu.cycles.toNat
    omega
  have hpending : (d.drawUntil (r * ticksPerCycle)).regs.nmiPending = true := by
    refine Drawing.drawUntil_raises (hpasses.counted (by rw [hr]; decide) h₀).onCourse
      (hpasses.before_vblank hr h₀ hstart (by simp)) ?_ hn
    rw [hr]
    decide
  show (!d.machine.cpu.sync.retrying && (d.drawUntil (r * ticksPerCycle)).regs.nmiPending) = true
  rw [hretry, hpending]
  rfl

end Usual

end Moment

namespace Console

variable {κ σ : Type} {c : Console κ}

theorem clear_opening (c : Console κ) (hpos : 0 < c.settings.renderCycles) (sink : σ) :
    Moment.Clear c.settings.renderCycles ⟨.running, c.opening sink⟩ where
  running hne := absurd rfl hne
  settled hle := absurd hpos (Nat.not_lt_of_le hle)

variable [Cartridge κ] [PixelSink σ]

/-- A frame in which vblank begins between the two phases. -/
structure VblankOnTime (c : Console κ) (sink : σ) : Prop where
  runs : c.runFrame sink = c.conclude (c.frame sink)
  /-- the first phase goes through its moments, and halts or is completed -/
  ends : Moment.Ends c.settings.renderCycles (c.opening sink) (c.rendering sink)
  /-- as long as the machine runs in the first phase, vblank has not begun -/
  before (t : Moment κ σ) (h : c.Passes sink t) (hs : t.stage ≠ .completing) :
    t.drawing.elapsed < Beam.vblankStart ∧
      ¬ (t.drawing.raster.beam.line = 241 ∧ t.drawing.raster.beam.tick = 1)
  /-- and what is drawn meanwhile raises no interrupt -/
  quiet (d : Drawing κ σ) (h : c.Passes sink ⟨.catching, d⟩) (hlt : d.elapsed < d.tickOfCpu) :
    (d.ticks 1).regs.nmiPending = d.regs.nmiPending
  /-- it begins while the picture is completed -/
  arrives (excess : Nat) (d : Drawing κ σ) (h : c.rendering sink = (.completed excess, d)) :
    c.Passes sink ⟨.completing, d.drawUntil Beam.vblankStart⟩ ∧
      (d.drawUntil Beam.vblankStart).raster.beam.line = 241 ∧
      (d.drawUntil Beam.vblankStart).raster.beam.tick = 1
  /-- then, if it is enabled, the interrupt is entered in the first step of the second phase -/
  enters (excess : Nat) (d : Drawing κ σ) (h : c.rendering sink = (.completed excess, d))
    (hn : d.regs.control.nmiEnabled = true) :
    let m := (d.endRender c.settings.renderTicks).machine
    ∃ journal, m.step = (.ran 7, { m.nmiEntered with journal }) ∧
      c.frame sink = (d.endRender c.settings.renderTicks).onMachine fun _ =>
        walk Machine.step (c.settings.vblankCycles - 1) 6 { m.nmiEntered with journal }

theorem resting_of_step {d : Drawing κ σ} {m : Machine κ} (hrest : 1 ≤ c.settings.vblankCycles)
    (hstep : (d.endRender c.settings.renderTicks).machine.step = (.ran 7, m)) :
    c.resting d = (d.endRender c.settings.renderTicks).onMachine fun _ =>
      walk Machine.step (c.settings.vblankCycles - 1) 6 m := by
  obtain ⟨v, hv⟩ : ∃ v, c.settings.vblankCycles = v + 1 := Nat.exists_eq_add_of_le' hrest
  rw [resting, Drawing.onMachine_eq, Drawing.onMachine_eq, hv, Machine.burst, walk, hstep]
  rfl

/-- **The interrupt of vblank lands at the beginning of the second phase.**  This is so in every
frame of the usual length, whatever was done to the console before and whatever it runs, and whether
or not the machine waits for the drawing. -/
theorem Reachable.vblankOnTime (hc : Reachable c) (hh : c.halt = none)
    (hrender : c.settings.renderCycles = 27508) (hrest : 1 ≤ c.settings.vblankCycles) (sink : σ) :
    c.VblankOnTime sink := by
  have h₀ := hc.sound.counted sink
  have hr : 3 * c.settings.renderCycles < UInt32.size := by
    rw [hrender]
    decide
  have hclear := c.clear_opening (by omega) sink
  have hends : Moment.Ends c.settings.renderCycles (c.opening sink) (c.rendering sink) :=
    Moment.Passes.walk hr h₀ _ 0 .start (Nat.zero_add _)
  have hbefore {t : Moment κ σ} (h : c.Passes sink t) (hs : t.stage ≠ .completing) :
      t.drawing.elapsed < Beam.vblankStart := h.before_vblank hrender h₀ rfl hs
  have hcourse {t : Moment κ σ} (h : c.Passes sink t) : t.drawing.raster.beam.OnCourse :=
    (h.counted hr h₀).onCourse
  refine ⟨runFrame_of_not_halted hh sink, hends, fun t h hs => ⟨hbefore h hs, fun hv => ?_⟩,
    fun d h hlt => ?_, fun excess d h => ?_, fun excess d h hn => ?_⟩
  · exact absurd ((hcourse h).vblankStart_le hv.1 hv.2) (Nat.not_le_of_lt (hbefore h hs))
  · have hnext : c.Passes sink ⟨.catching, d.ticks 1⟩ := h.next (by rw [Moment.next, if_pos hlt])
    have hlt' := hbefore hnext (by simp)
    rw [Drawing.ticks_elapsed] at hlt'
    exact Scan.run_nmiPending 1 (s := d.scan) (hcourse h) hlt'
  · rw [h] at hends
    exact hends.vblank hrender h₀ rfl
  · rw [h] at hends
    have hdue := hends.nmiDue hrender h₀ rfl hclear hn
    have hhalted : d.machine.cpu.halted = false := by
      refine (hends.1.clear hclear).running ?_
      have hcycles := hends.2
      show d.machine.cpu.cycles.toNat ≠ 0
      omega
    obtain ⟨journal, hstep⟩ := Machine.step_of_due
      (m := (d.endRender c.settings.renderTicks).machine) hhalted hdue rfl
      (hends.1.counted hr h₀).stall
    refine ⟨journal, hstep, ?_⟩
    rw [Console.frame, h]
    exact resting_of_step hrest hstep

end Console

/-! ### A console that waits for the interrupt -/

/-- A cartridge whose program enables the interrupt and waits for it, for ever. -/
inductive Sentry where
  | sentry

namespace Sentry

/-- `LDA #$80`, `STA $2000`, `JMP` to itself. -/
def program : List UInt8 := [0xA9, 0x80, 0x8D, 0x00, 0x20, 0x4C, 0x05, 0x80]

/-- The program starts at its beginning, and the interrupt leads back to the jump. -/
def byte (address : UInt16) : UInt8 :=
  if address = 0xFFFA then 0x05
  else if address = 0xFFFB ∨ address = 0xFFFD then 0x80
  else if 0x8000 ≤ address then program.getD (address.toNat - 0x8000) 0
  else 0

instance : Cartridge Sentry where
  read _ := byte
  write cart _ _ := cart
  readPattern _ _ := 0
  writePattern cart _ _ := cart
  layout _ := .horizontal
  reset cart := cart

/-- A machine that waits at the jump, with the interrupt enabled. -/
structure Waiting (m : Machine Sentry) : Prop where
  pc : m.cpu.pc = 0x8005
  halted : m.cpu.halted = false
  sync : m.cpu.sync = {}
  stall : m.bus.stall = 0
  gameGenie : m.bus.gameGenie = none
  enabled : m.bus.video.regs.control.nmiEnabled = true

theorem Waiting.step {m : Machine Sentry} (h : Waiting m) :
    ∃ n m', m.step = (.ran n, m') ∧ Waiting m' := by
  have hwait : m.cpu.sync.mustWait = false := by rw [h.sync]; rfl
  have hread {address : UInt16} (ha : Region.ofAddress address = .cartridge) :
      m.bus.read address = (byte address, m.bus) := by
    unfold Bus.read Bus.readCartridge
    rw [ha, h.gameGenie]
    rfl
  cases hdue : m.nmiDue with
  | true =>
    obtain ⟨journal, hstep⟩ := Machine.step_of_due h.halted hdue hwait h.stall
    have hpeek {address : UInt16} (ha : Region.ofAddress address = .cartridge) :
        m.bus.peek address = byte address := by
      unfold Bus.peek Bus.readCartridge
      rw [ha, h.gameGenie]
      rfl
    have hpc : m.nmiEntered.cpu.pc = 0x8005 := by
      show wordOf (m.bus.peek 0xFFFB) (m.bus.peek 0xFFFA) = _
      rw [hpeek rfl, hpeek rfl]
      rfl
    obtain ⟨hhalted, hsync, hstall, hgenie, hcontrol⟩ := m.nmiEntered_keeps
    exact ⟨7, _, hstep, hpc, by rw [← h.halted, ← hhalted], by rw [← h.sync, ← hsync],
      by rw [← h.stall, ← hstall], by rw [← h.gameGenie, ← hgenie], by rw [hcontrol, h.enabled]⟩
  | false =>
    have hbytes : byte 0x8005 = 0x4C ∧ byte (0x8005 + 1) = 0x05 ∧ byte (0x8005 + 2) = 0x80 := by
      decide
    have hopcode : m.bus.read m.cpu.pc = (0x4C, m.bus) := by rw [h.pc, hread rfl, hbytes.1]
    have hlow : m.bus.read (m.cpu.pc + 1) = (0x05, m.bus) := by rw [h.pc, hread rfl, hbytes.2.1]
    have hhigh : m.bus.read (m.cpu.pc + 2) = (0x80, m.bus) := by rw [h.pc, hread rfl, hbytes.2.2]
    obtain ⟨operand, hexec⟩ := Program.exec_jump hopcode hlow hhigh m.cpu.undocumented
    obtain ⟨-, journal, hstep⟩ := Machine.step_of_not_due h.halted hdue hwait
    rw [hexec] at hstep
    refine ⟨_, _, hstep, rfl, h.halted, ?_, rfl, h.gameGenie, h.enabled⟩
    show Sync.mk m.cpu.sync.awaiting false = {}
    rw [h.sync]

end Sentry

namespace Console

def sentry : Console Sentry :=
  reset
    { machine := { cpu := {}, bus := .plug .sentry }
      settings := { synchronised := false } }

theorem sentry_reachable : sentry.Reachable := by
  refine .build (show Console.build Sentry.sentry { synchronised := false } = _ from ?_)
  rfl

theorem sentry_starts {σ : Type} (sink : σ) :
    ∃ m₁ m₂ : Machine Sentry, (sentry.opening sink).machine.step = (.ran 2, m₁) ∧
      m₁.step = (.ran 4, m₂) ∧ Sentry.Waiting m₂ := by
  have hrun : let m := (sentry.opening ()).machine
      (m.step.1 = .ran 2 ∧ m.step.2.step.1 = .ran 4) ∧
        m.step.2.step.2.cpu.pc = 0x8005 ∧ m.step.2.step.2.cpu.halted = false ∧
        m.step.2.step.2.cpu.sync = {} ∧ m.step.2.step.2.bus.stall = 0 ∧
        m.step.2.step.2.bus.gameGenie.isNone ∧
        m.step.2.step.2.bus.video.regs.control.nmiEnabled = true := by
    decide +kernel
  have hmachine : (sentry.opening sink).machine = (sentry.opening ()).machine := rfl
  rw [hmachine]
  generalize (sentry.opening ()).machine = m at hrun ⊢
  obtain ⟨⟨h₁, h₂⟩, hpc, hhalted, hsync, hstall, hgenie, henabled⟩ := hrun
  exact ⟨m.step.2, m.step.2.step.2, Prod.ext h₁ rfl, Prod.ext h₂ rfl, hpc, hhalted, hsync, hstall,
    Option.isNone_iff_eq_none.mp hgenie, henabled⟩

theorem sentry_completes {σ : Type} [PixelSink σ] (sink : σ) :
    ∃ excess d, sentry.rendering sink = (.completed excess, d) ∧ Sentry.Waiting d.machine := by
  have hstep (d : Drawing Sentry σ) (h : Sentry.Waiting d.machine) :
      ∃ n d', d.step = (.ran n, d') ∧ Sentry.Waiting d'.machine := by
    obtain ⟨n, m', hs, hm'⟩ := h.step
    refine ⟨n, { d with machine := m' }, ?_, hm'⟩
    rw [Drawing.step_of_ne_waits (by simp [hs]), hs]
  have hran {d : Drawing Sentry σ} {n : Nat} {m : Machine Sentry}
      (h : d.machine.step = (.ran n, m)) : d.step = (.ran n, { d with machine := m }) := by
    rw [Drawing.step_of_ne_waits (by simp [h]), h]
  obtain ⟨m₁, m₂, h₁, h₂, hwaiting⟩ := sentry_starts sink
  have hfirst := walk_of_ran (hran h₁) (by decide : 0 < 27508) (by decide)
  have hsecond := walk_of_ran (hran (d := { sentry.opening sink with machine := m₁ }) h₂)
    (by decide : 2 < 27508) (by decide)
  obtain ⟨excess, d, hd, hwaiting'⟩ := walk_completes hstep 27502 0
    (s := { sentry.opening sink with machine := m₂ }) hwaiting
  exact ⟨excess, d, hfirst.trans (hsecond.trans hd), hwaiting'⟩

theorem sentry_vblankOnTime :
    sentry.Reachable ∧ sentry.halt = none ∧ sentry.settings.renderCycles = 27508 ∧
      1 ≤ sentry.settings.vblankCycles ∧
      ∃ excess d, sentry.rendering Screen.blank = (.completed excess, d) ∧
        d.regs.control.nmiEnabled = true ∧
        ∃ journal, (d.endRender sentry.settings.renderTicks).machine.step =
          (.ran 7,
            { (d.endRender sentry.settings.renderTicks).machine.nmiEntered with journal }) := by
  have hontime := Reachable.vblankOnTime sentry_reachable rfl rfl (by decide) Screen.blank
  obtain ⟨excess, d, hd, hwaiting⟩ := sentry_completes Screen.blank
  obtain ⟨journal, hstep, -⟩ := hontime.enters excess d hd hwaiting.enabled
  exact ⟨sentry_reachable, rfl, rfl, by decide, excess, d, hd, hwaiting.enabled, journal, hstep⟩

end Console

end Famicom
