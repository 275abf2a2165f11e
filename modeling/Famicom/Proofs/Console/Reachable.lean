import Famicom.Console.Snapshot
import Famicom.Proofs.Console.Drawing
import Famicom.Proofs.Machine.Cycles

/-!
# What a console can come to

A console is built and then used: it runs frames, is reset, saved and restored, and its pads and
codes change (`Reachable`).  Whatever is done to it, between two frames no transfer is unaccounted
for, and an instruction can only have been taken back where the frames have a first phase at all
(`Reachable.sound`).
-/

namespace Famicom

open Picture Processor

/-! ### Steps -/

namespace Machine

variable {κ : Type} [Cartridge κ] {m : Machine κ}

/-- Beside a picture that does not lag behind, no step is refused and none is taken back. -/
theorem step_idle (h : m.cpu.sync = {}) : m.step.1 ≠ .waits ∧ m.step.2.cpu.sync = {} := by
  have hne : m.step.1 ≠ .waits := step_ne_waits (by rw [h]; rfl)
  refine ⟨hne, ?_⟩
  rcases hs : m.step with ⟨p, m'⟩
  rw [hs] at hne
  cases p with
  | ran n => rw [(ran_of_step hs).sync, h]
  | waits => exact absurd rfl hne
  | halted pc => rw [(stopped_of_step hs).sync, h]

theorem burst_idle (h : m.cpu.sync = {}) (budget : Nat) :
    (m.burst budget).1 ≠ .waits ∧ (m.burst budget).2.cpu.sync = {} :=
  ⟨walk_ne_waits (P := fun m : Machine κ => m.cpu.sync = {}) (fun _ => step_idle) budget 0 h,
    walk_keeps (P := fun m : Machine κ => m.cpu.sync = {}) (fun _ h => (step_idle h).2) budget 0 h⟩

end Machine

namespace Console

variable {κ σ : Type} {c c' : Console κ}

/-! ### Between two frames -/

/-- A console that was built is one that was reset. -/
theorem eq_reset_of_build [Cartridge κ] {cart : κ} {settings : Settings} {journal : Journal}
    (h : build cart settings journal = .ok c) :
    ∃ m : Machine κ, c = reset { machine := m, settings } := by
  unfold build at h
  cases hg : settings.gameGenie with
  | none =>
    rw [hg] at h
    cases h
    exact ⟨_, rfl⟩
  | some code =>
    simp only [hg, Bind.bind, Except.bind] at h
    split at h <;> cases h
    exact ⟨_, rfl⟩

/-- The console with another code, which the journal tells. -/
def withCode (c : Console κ) (gameGenie : Option GameGenie) (journal : Journal) : Console κ :=
  { c with machine := { c.machine with bus := { c.machine.bus with gameGenie }, journal } }

theorem eq_withCode_of_arm {code : String} (h : c.arm code = .ok c') :
    ∃ patch journal, c' = c.withCode (some patch) journal := by
  simp only [arm, Bind.bind, Except.bind, Machine.arm] at h
  split at h <;> rename_i heq <;> cases h
  split at heq <;> cases heq
  exact ⟨_, _, rfl⟩

theorem disarm_eq_withCode (c : Console κ) :
    ∃ genie journal, c.disarm = c.withCode genie journal := by
  unfold disarm Machine.disarm
  split
  · exact ⟨none, _, rfl⟩
  · exact ⟨c.machine.bus.gameGenie, c.machine.journal, rfl⟩

theorem eq_take_of_restore (h : c.restore = .ok c') :
    ∃ s journal, c.snapshot = some s ∧
      c' = (take { c with snapshot := none } s).withCode c.machine.bus.gameGenie journal := by
  unfold restore at h
  split at h <;> cases h
  rename_i s hs
  exact ⟨s, _, hs, rfl⟩

/-! ### Frames -/

theorem conclude_machine (c : Console κ) (r : Outcome × Drawing κ σ) :
    (c.conclude r).2.1.machine = r.2.machine := by
  unfold conclude
  simp only
  split <;> rfl

theorem conclude_raster (c : Console κ) (r : Outcome × Drawing κ σ) :
    (c.conclude r).2.1.raster = r.2.raster := by
  unfold conclude
  simp only
  split <;> rfl

theorem conclude_sink (c : Console κ) (r : Outcome × Drawing κ σ) :
    (c.conclude r).2.2 = r.2.sink := by
  unfold conclude
  simp only
  split <;> rfl

theorem conclude_keeps (c : Console κ) (r : Outcome × Drawing κ σ) :
    (c.conclude r).2.1.settings = c.settings ∧ (c.conclude r).2.1.snapshot = c.snapshot := by
  unfold conclude
  simp only
  split <;> exact ⟨rfl, rfl⟩

theorem conclude_halt (hh : c.halt = none) {r : Outcome × Drawing κ σ} {halt : Halt}
    (h : (c.conclude r).2.1.halt = some halt) : halt.cycles = r.2.machine.cpu.totalCycles := by
  unfold conclude at h
  simp only at h
  split at h
  · cases h
    rfl
  · rw [hh] at h
    cases h

variable [Cartridge κ] [PixelSink σ]

theorem runFrame_of_not_halted (h : c.halt = none) (sink : σ) :
    c.runFrame sink = c.conclude (c.frame sink) := by
  rw [runFrame, h]

/-- What the steps of the machine keep is kept by a frame, if drawing and counting do not matter
to it. -/
theorem runFrame_keeps {P : Machine κ → Prop} (hstep : ∀ m, P m → P m.step.2)
    (hdraw : ∀ m r j, P m → P { m with bus := m.bus.setRegs r, journal := j })
    (hcpu : ∀ m (cpu : Cpu), cpu.toCore = m.cpu.toCore →
      cpu.undocumented = m.cpu.undocumented → P m → P { m with cpu })
    (h : P c.machine) (sink : σ) : P (c.runFrame sink).2.1.machine := by
  have hrender : P (c.rendering sink).2.machine :=
    walk_keeps (P := fun d : Drawing κ σ => P d.machine)
      (fun _ => Drawing.step_keeps hstep hdraw) _ 0 (hcpu _ _ rfl rfl h)
  cases hh : c.halt with
  | some halt =>
    rw [runFrame, hh]
    exact h
  | none =>
    rw [runFrame_of_not_halted hh, conclude_machine, frame]
    split <;> rename_i heq <;> rw [heq] at hrender
    · exact hrender
    · exact walk_keeps hstep _ 0 (hcpu _ _ rfl rfl (hdraw _ _ _ hrender))

/-- So is what they keep of the bus. -/
theorem runFrame_keeps_bus {P : Bus κ → Prop} (hstep : ∀ m : Machine κ, P m.bus → P m.step.2.bus)
    (hregs : ∀ b r, P b → P (b.setRegs r)) (h : P c.machine.bus) (sink : σ) :
    P (c.runFrame sink).2.1.machine.bus :=
  runFrame_keeps (P := fun m => P m.bus) hstep (fun _ _ _ => hregs _ _) (fun _ _ _ _ h => h) h sink

theorem runFrame_settings (c : Console κ) (sink : σ) :
    (c.runFrame sink).2.1.settings = c.settings ∧ (c.runFrame sink).2.1.snapshot = c.snapshot := by
  unfold runFrame
  split
  · exact ⟨rfl, rfl⟩
  · exact conclude_keeps c _

/-! ### Reachable consoles -/

/-- What can become of a console: its pads change as it is played on, and its journal is read. -/
inductive Reachable : Console κ → Prop
  | build {cart : κ} {settings : Settings} {journal : Journal} {c : Console κ}
    (h : build cart settings journal = .ok c) : Reachable c
  | reset {c : Console κ} (h : Reachable c) : Reachable c.reset
  | frame {c : Console κ} (h : Reachable c) {σ : Type} [PixelSink σ] (sink : σ) :
    Reachable (c.runFrame sink).2.1
  | arm {c c' : Console κ} (h : Reachable c) {code : String} (h' : c.arm code = .ok c') :
    Reachable c'
  | disarm {c : Console κ} (h : Reachable c) : Reachable c.disarm
  | save {c : Console κ} (h : Reachable c) : Reachable c.save
  | restore {c c' : Console κ} (h : Reachable c) (h' : c.restore = .ok c') : Reachable c'
  | pads {c : Console κ} (h : Reachable c) (pads : Vector (Option Joypad) 2) :
    Reachable { c with machine := { c.machine with bus := { c.machine.bus with pads } } }
  | journal {c : Console κ} (h : Reachable c) (journal : Journal) :
    Reachable { c with machine := { c.machine with journal } }

/-- What holds between two frames. -/
structure Sound (c : Console κ) : Prop where
  stall : c.machine.bus.stall = 0
  retrying : c.machine.cpu.sync.retrying = true → c.settings.renderCycles ≠ 0
  saved : ∀ s, c.snapshot = some s → s.cpu.sync.retrying = true → c.settings.renderCycles ≠ 0

namespace Sound

theorem reset (h : ∀ s, c.snapshot = some s → s.cpu.sync.retrying = true →
    c.settings.renderCycles ≠ 0) : Sound c.reset where
  stall := rfl
  retrying hr := by cases hr
  saved := h

/-- A frame without a first phase never has anything to take back. -/
theorem frame (h : Sound c) (sink : σ) : Sound (c.runFrame sink).2.1 := by
  have hstall := runFrame_keeps_bus (P := fun b : Bus κ => b.stall = 0)
    (fun _ => Machine.step_stall) (fun _ _ h => h) h.stall sink
  cases hh : c.halt with
  | some halt =>
    rw [runFrame, hh]
    exact h
  | none =>
    obtain ⟨hset, hsnap⟩ := runFrame_settings c sink
    refine ⟨hstall, ?_, by rw [hset, hsnap]; exact h.saved⟩
    rw [hset, runFrame_of_not_halted hh, conclude_machine]
    intro hr h0
    have hsync : (c.frame sink).2.machine.cpu.sync = {} := by
      have hidle : ((c.opening sink).endRender c.settings.renderTicks).machine.cpu.sync = {} := by
        have : c.machine.cpu.sync.retrying = false := by
          cases hc : c.machine.cpu.sync.retrying with
          | false => rfl
          | true => exact absurd h0 (h.retrying hc)
        show Sync.mk false c.machine.cpu.sync.retrying = {}
        rw [this]
      have hrender : c.rendering sink = (.completed 0, c.opening sink) := by
        rw [rendering, h0]
        rfl
      rw [Console.frame, hrender]
      exact (Machine.burst_idle hidle _).2
    rw [hsync] at hr
    cases hr

end Sound

/-- **Whatever was done to a console, it is sound.** -/
theorem Reachable.sound {c : Console κ} (h : Reachable c) : Sound c := by
  induction h with
  | build h =>
    obtain ⟨m, rfl⟩ := eq_reset_of_build h
    exact .reset fun s hs => by cases hs
  | reset _ ih => exact .reset ih.saved
  | frame _ sink ih => exact ih.frame sink
  | arm _ h' ih =>
    obtain ⟨patch, journal, rfl⟩ := eq_withCode_of_arm h'
    exact ⟨ih.stall, ih.retrying, ih.saved⟩
  | @disarm c _ ih =>
    obtain ⟨genie, journal, heq⟩ := disarm_eq_withCode c
    rw [heq]
    exact ⟨ih.stall, ih.retrying, ih.saved⟩
  | save _ ih => exact ⟨ih.stall, ih.retrying, fun s hs => by cases hs; exact ih.retrying⟩
  | restore _ h' ih =>
    obtain ⟨s, journal, hs, rfl⟩ := eq_take_of_restore h'
    exact ⟨ih.stall, ih.saved s hs, fun s hs => by cases hs⟩
  | pads _ pads ih => exact ⟨ih.stall, ih.retrying, ih.saved⟩
  | journal _ journal ih => exact ⟨ih.stall, ih.retrying, ih.saved⟩

/-! ### A console to try -/

/-- A plain board whose program is the same byte everywhere; its other chips hold zeros. -/
def boardOf (byte : UInt8) : Board := .nrom
  { program := ⟨1, Nat.one_pos, .replicate _ byte⟩
    pattern := ⟨1, Nat.one_pos, .replicate _ 0, false⟩
    ram := .replicate _ 0
    layout := .horizontal }

/-- A new console with such a board, which starts where the vector with these bytes leads. -/
def plain (byte : UInt8) (renderCycles : Nat) : Console Board where
  machine :=
    { cpu := { pc := wordOf byte byte, totalCycles := Cpu.interruptCycles }
      bus := .plug (boardOf byte)
      journal := ({} : Journal).record (.resetTo (wordOf byte byte)) }
  settings := { renderCycles }

theorem peek_boardOf {b : Bus Board} {byte : UInt8} (hcart : b.cartridge = boardOf byte)
    (hgenie : b.gameGenie = none) {address : UInt16} (h : Region.ofAddress address = .cartridge)
    (hrom : 0x8000 ≤ address) : b.peek address = byte := by
  have hram : Nrom.isRam address = false := by
    simp only [Nrom.isRam, Bool.and_eq_false_iff, decide_eq_false_iff_not]
    exact .inr (UInt16.not_lt.mpr hrom)
  unfold Bus.peek Bus.readCartridge
  rw [h, hcart, hgenie]
  show Nrom.read _ address = byte
  rw [Nrom.read, hram, if_neg Bool.false_ne_true, if_pos hrom]
  exact Vector.getElem_replicate ..

theorem plain_built (byte : UInt8) (renderCycles : Nat) :
    Console.build (boardOf byte) { renderCycles } = .ok (plain byte renderCycles) := by
  show Except.ok (Console.reset _) = _
  unfold Console.reset Machine.resetCpu
  dsimp only
  rw [peek_boardOf rfl rfl rfl (by decide), peek_boardOf rfl rfl rfl (by decide)]
  rfl

theorem plain_reachable (byte : UInt8) (renderCycles : Nat) :
    (plain byte renderCycles).Reachable :=
  .build (plain_built byte renderCycles)

end Console

end Famicom
