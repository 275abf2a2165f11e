import Famicom.Console.Drawing
import Famicom.Proofs.Bus.Frame
import Famicom.Proofs.Picture.Ticks

/-!
# Laws of a machine at work on a picture

Drawing changes the raster, the unit's registers and the sink (`Drawing.scan`), and nothing else of
the machine (`ticks_eq`).  Drawing up to one tick and then up to a later one is drawing up to the
later one (`drawUntil_drawUntil`).  A step leaves the drawing alone unless it is refused
(`step_of_ne_waits`, `step_of_waits`).
-/

namespace Famicom.Drawing

open Picture

variable {κ σ : Type}

/-- The ticks drawn since the frame was begun. -/
abbrev elapsed (d : Drawing κ σ) : Nat := d.raster.beam.elapsed

/-- What drawing changes. -/
def scan (d : Drawing κ σ) : Scan σ := ⟨d.raster, d.machine.bus.video.regs, d.sink⟩

/-- Puts something else in its place. -/
def setScan (d : Drawing κ σ) (s : Scan σ) : Drawing κ σ where
  machine := { d.machine with bus := d.machine.bus.setRegs s.regs }
  raster := s.raster
  sink := s.sink

theorem onMachine_eq {α : Type} (f : Machine κ → α × Machine κ) (d : Drawing κ σ) :
    d.onMachine f = ((f d.machine).1, { d with machine := (f d.machine).2 }) := rfl

variable [Cartridge κ] [PixelSink σ]

theorem ticks_eq (d : Drawing κ σ) (n : Nat) :
    d.ticks n =
      d.setScan (Scan.run d.machine.bus.cartridge d.machine.bus.video.memory n d.scan) := rfl

theorem drawUntil_eq (d : Drawing κ σ) (target : Nat) :
    d.drawUntil target = d.ticks (target - d.elapsed) := rfl

theorem ticks_elapsed (d : Drawing κ σ) (n : Nat) : (d.ticks n).elapsed = d.elapsed + n :=
  Scan.run_elapsed n d.scan

theorem ticks_onCourse (n : Nat) {d : Drawing κ σ} (h : d.raster.beam.OnCourse) :
    (d.ticks n).raster.beam.OnCourse :=
  Scan.run_onCourse (s := d.scan) n h

theorem ticks_add (d : Drawing κ σ) (n k : Nat) : d.ticks (n + k) = (d.ticks n).ticks k := by
  rw [ticks_eq, Scan.run_add]
  rfl

theorem drawUntil_scan (d : Drawing κ σ) (target : Nat) :
    (d.drawUntil target).scan = Scan.run d.machine.bus.cartridge d.machine.bus.video.memory
      (target - d.elapsed) d.scan := rfl

theorem drawUntil_elapsed (d : Drawing κ σ) (target : Nat) :
    (d.drawUntil target).elapsed = max d.elapsed target := by
  rw [drawUntil_eq, ticks_elapsed]
  omega

theorem drawUntil_of_le {d : Drawing κ σ} {target : Nat} (h : target ≤ d.elapsed) :
    d.drawUntil target = d := by
  rw [drawUntil_eq, Nat.sub_eq_zero_of_le h]
  rfl

theorem drawUntil_bus (d : Drawing κ σ) (target : Nat) :
    (d.drawUntil target).machine.bus =
      d.machine.bus.setRegs (d.drawUntil target).machine.bus.video.regs := rfl

/-- Drawing up to a tick on the way does not matter. -/
theorem drawUntil_drawUntil (d : Drawing κ σ) {t t' : Nat} (h : t ≤ t') :
    (d.drawUntil t).drawUntil t' = d.drawUntil t' := by
  have hadd : t' - d.elapsed = (t - d.elapsed) + (t' - (d.drawUntil t).elapsed) := by
    rw [drawUntil_elapsed]
    omega
  rw [drawUntil_eq d t', hadd, ticks_add, drawUntil_eq (d.drawUntil t) t', drawUntil_eq d t]

theorem drawUntil_tick {d : Drawing κ σ} {target : Nat} (h : d.elapsed < target) :
    (d.ticks 1).drawUntil target = d.drawUntil target := by
  have htick : d.ticks 1 = d.drawUntil (d.elapsed + 1) := by
    rw [drawUntil_eq, Nat.add_sub_cancel_left]
  rw [htick, drawUntil_drawUntil d h]

/-! ### Steps -/

/-- A step that is not refused leaves the drawing alone. -/
theorem step_of_ne_waits {d : Drawing κ σ} (h : d.machine.step.1 ≠ .waits) :
    d.step = (d.machine.step.1, { d with machine := d.machine.step.2 }) := by
  rw [step, onMachine_eq]
  split <;> simp_all

/-- A step that is refused is made again on what has been drawn up to the processor. -/
theorem step_of_waits {d : Drawing κ σ} {m : Machine κ} (h : d.machine.step = (.waits, m)) :
    d.step = ({ d with machine := m } : Drawing κ σ).catchUp.onMachine Machine.step := by
  rw [step, onMachine_eq, h]

/-- What the steps of the machine keep, whatever the registers of the picture unit and the journal,
is kept by the whole. -/
theorem step_keeps {P : Machine κ → Prop} (hstep : ∀ m, P m → P m.step.2)
    (hdraw : ∀ m r j, P m → P { m with bus := m.bus.setRegs r, journal := j }) {d : Drawing κ σ}
    (h : P d.machine) : P d.step.2.machine := by
  by_cases hw : d.machine.step.1 = .waits
  · rw [step_of_waits (Prod.ext hw rfl)]
    exact hstep _ (hdraw d.machine.step.2 _ _ (hstep _ h))
  · rw [step_of_ne_waits hw]
    exact hstep _ h

end Famicom.Drawing
