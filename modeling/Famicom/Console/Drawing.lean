import Famicom.Machine.Step
import Famicom.Picture.Raster

/-!
# A machine at work on a picture

The processor runs ahead of the picture.  When an instruction touches the picture unit it is taken
back, the drawing catches up to the cycle at which the instruction starts, and the instruction runs
again (`Drawing.step`).  So the unit is always seen as it is at that cycle, and the drawing need not
follow every instruction.
-/

namespace Famicom

open Picture

/-- Picture ticks in one processor cycle. -/
def ticksPerCycle : Nat := 3

/-- A machine, the drawing of its picture, and where the pixels go. -/
structure Drawing (κ σ : Type) where
  machine : Machine κ
  raster : Raster
  sink : σ

namespace Drawing

variable {κ σ : Type} [Cartridge κ] [PixelSink σ]

/-- Works on the drawing alone: on the raster, the unit's registers and the sink. -/
@[inline] def onScan (f : κ → Memory → Scan σ → Scan σ) (d : Drawing κ σ) : Drawing κ σ :=
  let ⟨⟨cpu, bus, journal⟩, raster, sink⟩ := d
  let ⟨cart, ⟨memory, regs⟩, ram, pads, gameGenie, stall⟩ := bus
  let ⟨raster, regs, sink⟩ := f cart memory ⟨raster, regs, sink⟩
  ⟨⟨cpu, ⟨cart, ⟨memory, regs⟩, ram, pads, gameGenie, stall⟩, journal⟩, raster, sink⟩

def ticks (d : Drawing κ σ) (n : Nat) : Drawing κ σ := d.onScan fun cart m => Scan.run cart m n

/-- Draws until `target` ticks have passed in the frame. -/
def drawUntil (d : Drawing κ σ) (target : Nat) : Drawing κ σ :=
  d.onScan fun cart m => Scan.runUntil cart m target

/-- The tick at which the processor stands. -/
def tickOfCpu (d : Drawing κ σ) : Nat := d.machine.cpu.cycles.toNat * ticksPerCycle

/-- Notes that the drawing has come to where the processor stands. -/
def noteCaughtUp (d : Drawing κ σ) : Drawing κ σ :=
  let b := d.raster.beam
  { d with machine := d.machine.record (.caughtUp d.machine.cpu.cycles b.elapsed b.line b.tick) }

/-- Brings the drawing to where the processor stands. -/
def catchUp (d : Drawing κ σ) : Drawing κ σ := (d.drawUntil d.tickOfCpu).noteCaughtUp

/-- Runs the machine alone. -/
def onMachine {α : Type} (f : Machine κ → α × Machine κ) (d : Drawing κ σ) : α × Drawing κ σ :=
  let ⟨machine, raster, sink⟩ := d
  let ⟨a, machine⟩ := f machine
  (a, ⟨machine, raster, sink⟩)

/-- One step of the machine, with the drawing brought up to date if the step asks for it. -/
def step (d : Drawing κ σ) : Progress × Drawing κ σ :=
  match d.onMachine Machine.step with
  | (.waits, d) => d.catchUp.onMachine Machine.step
  | r => r

/-- Runs the machine through the cycles in which the picture is drawn. -/
def render (d : Drawing κ σ) (cycles : Nat) : Outcome × Drawing κ σ := walk step cycles 0 d

/-- Gets machine and drawing ready for a frame. -/
def beginFrame (d : Drawing κ σ) (awaiting : Bool) : Drawing κ σ :=
  { d with
    machine := { d.machine with cpu := d.machine.cpu.beginFrame.setAwaiting awaiting }
    raster := d.raster.beginFrame }

/-- The drawing is complete; the picture lags behind no more until the next frame. -/
def endRender (d : Drawing κ σ) (target : Nat) : Drawing κ σ :=
  let d := d.drawUntil target
  { d with machine := { d.machine with cpu := d.machine.cpu.setAwaiting false } }

end Drawing

end Famicom
