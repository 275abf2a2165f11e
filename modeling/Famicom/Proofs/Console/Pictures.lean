import Famicom.Proofs.Console.Moments
import Famicom.Proofs.Machine.Entry
import Famicom.Proofs.Picture.Sent

/-!
# One picture a frame

A frame whose first phase is long enough for the visible lines, and not so long that the next
picture would begin, sends its sink one whole picture and nothing else (`Reachable.draws`).  How the
machine's steps cut the drawing into pieces, and what it writes in between, does not matter: what
has been sent is a matter of the ticks alone (`Moment.Passes.sent`), and so is the place of the beam.
-/

namespace Famicom

open Picture Processor

namespace Moment

variable {κ σ : Type} [Cartridge κ] [PixelSink σ] {r : Nat} {t t' : Moment κ σ} {d d₀ : Drawing κ σ}
  {sink₀ : σ}

theorem sent_tick (ho : d.raster.beam.OnCourse) (hlt : d.elapsed < lastTick)
    (h : Sent sink₀ d.elapsed d.sink) : Sent sink₀ (d.ticks 1).elapsed (d.ticks 1).sink := by
  rw [Drawing.ticks_elapsed]
  exact Scan.step_sent (s := d.scan) ho hlt h

theorem Counted.sent_next (hc : Counted r t) (hr : r * ticksPerCycle ≤ lastTick)
    (ht : t.next r = some t') (h : Sent sink₀ t.drawing.elapsed t.drawing.sink) :
    Sent sink₀ t'.drawing.elapsed t'.drawing.sink := by
  obtain ⟨s, d⟩ := t
  cases s with
  | running =>
    -- whatever the machine does, neither the ticks nor the sink are its own to change
    rw [Moment.next, Drawing.onMachine_eq] at ht
    split at ht
    · rcases hs : d.machine.step with ⟨p, m⟩
      rw [hs] at ht
      cases p <;> cases ht <;> exact h
    · cases ht
      exact h
  | catching =>
    rw [Moment.next] at ht
    split at ht <;> rename_i hlt <;> cases ht
    · exact sent_tick hc.onCourse (Nat.lt_of_lt_of_le (hc.elapsed_lt hlt) hr) h
    · exact h
  | completing =>
    rw [Moment.next] at ht
    split at ht <;> rename_i hlt <;> cases ht
    exact sent_tick hc.onCourse (Nat.lt_of_lt_of_le hlt hr) h

/-- **What has been sent at a moment** is a matter of the ticks up to it. -/
theorem Passes.sent (h : Passes r d₀ t) (hr : 3 * r < UInt32.size)
    (hlast : r * ticksPerCycle ≤ lastTick) (h₀ : Counted r ⟨.running, d₀⟩)
    (hstart : d₀.elapsed = 0) : Sent d₀.sink t.drawing.elapsed t.drawing.sink := by
  induction h with
  | start =>
    rw [show (Moment.mk Stage.running d₀).drawing.elapsed = 0 from hstart]
    exact .start d₀.sink
  | next hpasses ht ih => exact (hpasses.counted hr h₀).sent_next hlast ht ih

end Moment

/-- The place of the beam, line by line, is that of its ticks. -/
theorem Picture.Beam.OnCourse.law {b : Beam} (h : b.OnCourse) :
    b.line < linesPerFrame ∧ b.tick < ticksPerLine ∧
      (b.line * ticksPerLine + b.tick) % ticksPerFrame =
        (preparing * ticksPerLine + b.elapsed) % ticksPerFrame := by
  obtain ⟨hline, htick⟩ := h
  simp only [ticksPerFrame, ticksPerLine, linesPerFrame, preparing] at *
  omega

namespace Console

variable {κ σ : Type} {c : Console κ} [Cartridge κ] [PixelSink σ]

/-- A frame that draws one picture, pixel by pixel. -/
structure Draws (c : Console κ) (sink : σ) : Prop where
  /-- the first phase goes through its moments -/
  ends : Moment.Ends c.settings.renderCycles (c.opening sink) (c.rendering sink)
  /-- the last of them are those in which the picture is completed -/
  completed (excess : Nat) (d : Drawing κ σ) (h : c.rendering sink = (.completed excess, d)) :
    c.Passes sink ⟨.completing, d.drawUntil c.settings.renderTicks⟩ ∧
      (d.drawUntil c.settings.renderTicks).elapsed = c.settings.renderTicks
  /-- at each of them the beam is where the ticks have brought it -/
  place (t : Moment κ σ) (h : c.Passes sink t) :
    let b := t.drawing.raster.beam
    b.line < linesPerFrame ∧ b.tick < ticksPerLine ∧
      (b.line * ticksPerLine + b.tick) % ticksPerFrame =
        (Beam.preparing * ticksPerLine + b.elapsed) % ticksPerFrame
  /-- unless the phase halts, the sink is sent every pixel in its order, then that the picture is
  complete, and nothing else -/
  picture (h : ∀ pc, (c.rendering sink).1 ≠ .halted pc) :
    ∃ colours : List UInt8, colours.length = width * height ∧ (∀ colour ∈ colours, colour < 64) ∧
      (c.runFrame sink).2.2 = sendAll sink (pixelCalls colours ++ [.complete])

/-- **One picture a frame.**  This is so whatever was done to the console before and whatever it
runs, and whether or not the machine waits for the drawing. -/
theorem Reachable.draws (hc : Reachable c) (hh : c.halt = none)
    (hfirst : 82181 ≤ c.settings.renderTicks) (hlast : c.settings.renderTicks ≤ 89683) (sink : σ) :
    c.Draws sink := by
  have h₀ := hc.sound.counted sink
  have hr : 3 * c.settings.renderCycles < UInt32.size := by
    have hticks : c.settings.renderTicks = c.settings.renderCycles * 3 := rfl
    simp only [UInt32.size]
    omega
  have hends : Moment.Ends c.settings.renderCycles (c.opening sink) (c.rendering sink) :=
    Moment.Passes.walk hr h₀ _ 0 .start (Nat.zero_add _)
  have hcompleted {excess : Nat} {d : Drawing κ σ} (h : c.rendering sink = (.completed excess, d)) :
      c.Passes sink ⟨.completing, d.drawUntil c.settings.renderTicks⟩ ∧
        (d.drawUntil c.settings.renderTicks).elapsed = c.settings.renderTicks := by
    have hthrough : c.Passes sink ⟨.completing, d⟩ := Moment.Ends.completed (h ▸ hends)
    exact ⟨hthrough.complete, (hthrough.counted hr h₀).drawUntil_elapsed⟩
  refine ⟨hends, fun _ _ => hcompleted, ?_, ?_⟩
  · intro t h
    exact (h.counted hr h₀).onCourse.law
  · intro hhalt
    rcases hd : c.rendering sink with ⟨excess | _ | pc, d⟩
    · obtain ⟨hpasses, helapsed⟩ := hcompleted hd
      have hsent : Sent sink (d.drawUntil c.settings.renderTicks).elapsed
          (d.drawUntil c.settings.renderTicks).sink := hpasses.sent hr hlast h₀ rfl
      rw [helapsed] at hsent
      obtain ⟨colours, hlength, hcolours, hsink⟩ := hsent.whole hfirst
      refine ⟨colours, hlength, hcolours, ?_⟩
      rw [runFrame_of_not_halted hh, conclude_sink, Console.frame, hd]
      exact hsink
    · rw [hd] at hends
      exact hends.elim
    · rw [hd] at hhalt
      exact absurd rfl (hhalt pc)

end Console

/-! ### A console that never halts -/

/-- A cartridge whose program jumps to its own beginning, for ever. -/
inductive Treadmill where
  | treadmill

namespace Treadmill

def byte (address : UInt16) : UInt8 :=
  if address = 0x8000 then 0x4C else if address = 0x8002 ∨ address = 0xFFFD then 0x80 else 0

instance : Cartridge Treadmill where
  read _ := byte
  write cart _ _ := cart
  readPattern _ _ := 0
  writePattern cart _ _ := cart
  layout _ := .horizontal
  reset cart := cart

theorem read_program {b : Bus Treadmill} (h : b.gameGenie = none) {address : UInt16}
    (ha : Region.ofAddress address = .cartridge) : b.read address = (byte address, b) := by
  unfold Bus.read Bus.readCartridge
  rw [ha, h]
  rfl

theorem exec_jump {c : Core} (hc : c.pc = 0x8000) {b : Bus Treadmill} (h : b.gameGenie = none)
    (undocumented : Bool) :
    ∃ c', (Program.instruction undocumented).exec c b = (some 3, c', b) ∧ c'.pc = 0x8000 := by
  have hopcode : b.read c.pc = (0x4C, b) := by rw [hc]; exact read_program h rfl
  have hlow : b.read (c.pc + 1) = (0, b) := by rw [hc]; exact read_program h rfl
  have hhigh : b.read (c.pc + 2) = (0x80, b) := by rw [hc]; exact read_program h rfl
  obtain ⟨operand, hexec⟩ := Program.exec_jump hopcode hlow hhigh undocumented
  exact ⟨_, hexec, rfl⟩

/-- A machine at the beginning of the program, with nothing to wait for. -/
structure AtJump (m : Machine Treadmill) : Prop where
  pc : m.cpu.pc = 0x8000
  halted : m.cpu.halted = false
  awaiting : m.cpu.sync.awaiting = false
  gameGenie : m.bus.gameGenie = none
  nmiPending : m.bus.video.regs.nmiPending = false

theorem AtJump.step {m : Machine Treadmill} (h : AtJump m) :
    ∃ n m', m.step = (.ran n, m') ∧ AtJump m' := by
  have hdue : m.nmiDue = false := by rw [Machine.nmiDue, h.nmiPending, Bool.and_false]
  have hwait : m.cpu.sync.mustWait = false := by rw [Sync.mustWait, h.awaiting, Bool.false_and]
  obtain ⟨c, hc, hpc⟩ := exec_jump h.pc h.gameGenie m.cpu.undocumented
  obtain ⟨-, journal, hstep⟩ := Machine.step_of_not_due h.halted hdue hwait
  rw [hc] at hstep
  exact ⟨_, _, hstep, hpc, h.halted, h.awaiting, h.gameGenie, h.nmiPending⟩

end Treadmill

namespace Console

def treadmill : Console Treadmill :=
  reset
    { machine := { cpu := {}, bus := .plug .treadmill }
      settings := { synchronised := false } }

theorem treadmill_reachable : treadmill.Reachable := by
  refine .build (show Console.build Treadmill.treadmill { synchronised := false } = _ from ?_)
  rfl

theorem treadmill_completes {σ : Type} [PixelSink σ] (sink : σ) :
    ∃ excess d, treadmill.rendering sink = (.completed excess, d) := by
  have hstep (d : Drawing Treadmill σ) (h : Treadmill.AtJump d.machine) :
      ∃ n d', d.step = (.ran n, d') ∧ Treadmill.AtJump d'.machine := by
    obtain ⟨n, m', hs, hm'⟩ := h.step
    refine ⟨n, { d with machine := m' }, ?_, hm'⟩
    rw [Drawing.step_of_ne_waits (by simp [hs]), hs]
  have hopening : Treadmill.AtJump (treadmill.opening sink).machine :=
    ⟨rfl, rfl, rfl, rfl, rfl⟩
  obtain ⟨excess, d, hd, -⟩ := walk_completes hstep treadmill.settings.renderCycles 0 hopening
  exact ⟨excess, d, hd⟩

theorem treadmill_draws :
    treadmill.Reachable ∧ treadmill.halt = none ∧ 82181 ≤ treadmill.settings.renderTicks ∧
      treadmill.settings.renderTicks ≤ 89683 ∧
      ∃ colours : List UInt8, colours.length = width * height ∧ (∀ colour ∈ colours, colour < 64) ∧
        (treadmill.runFrame Screen.blank).2.2 =
          sendAll Screen.blank (pixelCalls colours ++ [.complete]) := by
  have hdraws := Reachable.draws treadmill_reachable rfl (by decide) (by decide) Screen.blank
  refine ⟨treadmill_reachable, rfl, by decide, by decide, hdraws.picture ?_⟩
  intro pc
  obtain ⟨excess, d, hd⟩ := treadmill_completes Screen.blank
  simp [hd]

end Console

end Famicom
