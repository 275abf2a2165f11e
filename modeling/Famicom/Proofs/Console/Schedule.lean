import Famicom.Proofs.Console.Drawing
import Famicom.Proofs.Picture.Alike

/-!
# A new frame forgets the last

While a picture is drawn the processor may reach for the bus between any two ticks.  A schedule is
the order in which ticks and accesses come.  Whatever the raster holds when a frame begins, the same
schedule makes the same of the machine and sends the same to the sink (`beginFrame_forgets`): the
two rasters are alike from the beginning of the frame on, and neither ticks nor accesses tell them
apart.
-/

namespace Famicom

open Picture

/-- What happens while a picture is drawn. -/
inductive Incident where
  /-- a tick of the picture -/
  | tick
  /-- the processor reads an address -/
  | read (address : UInt16)
  /-- the processor writes an address; a write to the transfer register fills the sprite list -/
  | write (address : UInt16) (byte : UInt8)
  deriving DecidableEq, Repr

namespace Drawing

variable {κ σ : Type} [Cartridge κ] [PixelSink σ]

def meet (d : Drawing κ σ) : Incident → Drawing κ σ
  | .tick => d.ticks 1
  | .read address => { d with machine := { d.machine with bus := (d.machine.bus.read address).2 } }
  | .write address byte => { d with machine := d.machine.write address byte }

def follow (d : Drawing κ σ) (schedule : List Incident) : Drawing κ σ := schedule.foldl meet d

/-- The drawings differ only in what no later tick of the picture looks at. -/
structure Indistinct (d d' : Drawing κ σ) : Prop where
  machine : d.machine = d'.machine
  raster : d.raster.Alike d'.raster
  sink : d.sink = d'.sink

variable {d d' : Drawing κ σ}

omit [Cartridge κ] [PixelSink σ] in
theorem indistinct_beginFrame (machine : Machine κ) (sink : σ) (q q' : Raster) :
    Indistinct ⟨machine, q.beginFrame, sink⟩ ⟨machine, q'.beginFrame, sink⟩ :=
  ⟨rfl, q.alike_beginFrame q', rfl⟩

theorem Indistinct.tick (h : Indistinct d d') : Indistinct (d.ticks 1) (d'.ticks 1) := by
  obtain ⟨machine, q, sink⟩ := d
  obtain ⟨machine', q', sink'⟩ := d'
  obtain ⟨hmachine, hraster, hsink⟩ := h
  subst hmachine hsink
  obtain ⟨hnext, hregs, hsent⟩ := Scan.step_alike machine.bus.cartridge
    machine.bus.video.memory hraster machine.bus.video.regs sink
  rw [ticks_eq, ticks_eq]
  exact ⟨congrArg (fun r => { machine with bus := machine.bus.setRegs r }) hregs, hnext, hsent⟩

theorem Indistinct.meet (h : Indistinct d d') (e : Incident) :
    Indistinct (d.meet e) (d'.meet e) := by
  cases e with
  | tick => exact h.tick
  | read address =>
    refine ⟨?_, h.raster, h.sink⟩
    unfold Drawing.meet
    rw [h.machine]
  | write address byte => exact ⟨congrArg (·.write address byte) h.machine, h.raster, h.sink⟩

theorem Indistinct.follow (h : Indistinct d d') (schedule : List Incident) :
    Indistinct (d.follow schedule) (d'.follow schedule) := by
  induction schedule generalizing d d' with
  | nil => exact h
  | cons e schedule ih => exact ih (h.meet e)

/-- **A new frame forgets the last.**  What a raster held before does not show, in the machine or in
the picture, under any schedule. -/
theorem beginFrame_forgets (machine : Machine κ) (sink : σ) (q q' : Raster)
    (schedule : List Incident) :
    let d := follow ⟨machine, q.beginFrame, sink⟩ schedule
    let d' := follow ⟨machine, q'.beginFrame, sink⟩ schedule
    d.machine = d'.machine ∧ d.sink = d'.sink := by
  intro d d'
  have h : Indistinct d d' := (indistinct_beginFrame machine sink q q').follow schedule
  exact ⟨h.machine, h.sink⟩

end Drawing

end Famicom
