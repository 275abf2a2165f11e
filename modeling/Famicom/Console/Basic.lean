import Famicom.Console.Drawing

/-!
# The console

A console runs a game frame by frame.  A frame has two phases: in the first the picture is drawn
while the processor runs, in the second the processor runs alone.  Once the processor has halted
every further frame reports the halt, until the console is reset.
-/

namespace Famicom

open Picture Processor

/-- What the owner of a console chooses. -/
structure Settings where
  /-- processor cycles run while the picture is drawn -/
  renderCycles : Nat := 27508
  /-- processor cycles run between two pictures -/
  vblankCycles : Nat := 2272
  /-- whether undocumented opcodes run; otherwise they halt the processor -/
  undocumentedOpcodes : Bool := true
  /-- whether the picture is brought up to date before the processor touches its registers -/
  synchronised : Bool := true
  /-- a Game Genie code to arm when the console is built -/
  gameGenie : Option String := none
  deriving DecidableEq, Repr

/-- The picture ticks that pass while the picture is drawn. -/
def Settings.renderTicks (s : Settings) : Nat := s.renderCycles * ticksPerCycle

/-- A saved machine, with the cartridge as it was. -/
structure Snapshot (κ : Type) where
  cpu : Cpu
  ram : Vector UInt8 0x800
  video : Video
  raster : Raster
  cartridge : κ

/-- A console with a cartridge. -/
structure Console (κ : Type) where
  machine : Machine κ
  raster : Raster := {}
  settings : Settings := {}
  snapshot : Option (Snapshot κ) := none
  /-- the halt that every further frame reports -/
  halt : Option Halt := none

namespace Console

variable {κ σ : Type} [Cartridge κ] [PixelSink σ]

/-! ### Building and resetting -/

/-- The reset button. -/
def reset (c : Console κ) : Console κ :=
  let m := { c.machine with bus := c.machine.bus.reset }
  { c with machine := m.resetCpu, raster := {}, halt := none }

/-- Builds a console around a cartridge; a bad code in the settings is refused. -/
def build (cart : κ) (settings : Settings) (journal : Journal := {}) :
    Except Error (Console κ) := do
  let cpu : Cpu := { undocumented := settings.undocumentedOpcodes }
  let m : Machine κ := { cpu, bus := .plug cart, journal }
  let m ← match settings.gameGenie with
    | some code => m.arm code
    | none => pure m
  return reset { machine := m, settings }

/-- Builds a console around the cartridge in an image. -/
def ofImage (file : Array UInt8) (settings : Settings) (journal : Journal := {}) :
    Except Error (Console Board) := do
  let image ← Image.parse file
  build image.board settings (journal.record (.imageRead image.header))

/-! ### Frames -/

/-- The machine at the start of a frame, with the drawing that begins. -/
def opening (c : Console κ) (sink : σ) : Drawing κ σ :=
  Drawing.beginFrame ⟨c.machine, c.raster, sink⟩ c.settings.synchronised

def rendering (c : Console κ) (sink : σ) : Outcome × Drawing κ σ :=
  (c.opening sink).render c.settings.renderCycles

/-- The second phase, after the first has come to `d`. -/
def resting (c : Console κ) (d : Drawing κ σ) : Outcome × Drawing κ σ :=
  (d.endRender c.settings.renderTicks).onMachine fun m => m.burst c.settings.vblankCycles

def frame (c : Console κ) (sink : σ) : Outcome × Drawing κ σ :=
  match c.rendering sink with
  | (.halted pc, d) => (.halted pc, d)
  | (_, d) => c.resting d

/-- What a frame leaves behind; a halt is remembered and reported. -/
def conclude (c : Console κ) : Outcome × Drawing κ σ → Except Error Unit × Console κ × σ
  | (outcome, d) =>
    let c := { c with machine := d.machine, raster := d.raster }
    match outcome with
    | .halted pc =>
      let halt : Halt := ⟨pc, d.machine.cpu.totalCycles⟩
      (.error (.halted halt), { c with halt := some halt }, d.sink)
    | _ => (.ok (), c, d.sink)

/-- Runs a frame, drawing it to a sink. -/
def runFrame (c : Console κ) (sink : σ) : Except Error Unit × Console κ × σ :=
  match c.halt with
  | some halt => (.error (.halted halt), c, sink)
  | none => c.conclude (c.frame sink)

/-! ### Game Genie -/

/-- Arms a code in place of the one armed before; a code that cannot be read changes nothing. -/
def arm (c : Console κ) (code : String) : Except Error (Console κ) := do
  let m ← c.machine.arm code
  return { c with machine := m }

def disarm (c : Console κ) : Console κ := { c with machine := c.machine.disarm }

def isHalted (c : Console κ) : Bool := c.halt.isSome

end Console

end Famicom
