import Famicom.Picture.Background
import Famicom.Picture.Screen
import Famicom.Picture.SpriteUnit

/-!
# Drawing a picture tick by tick

A frame has 262 lines of 341 ticks.  Lines 0 to 239 are visible: each puts out 256 pixels and then
fetches what the next line needs.  Line 240 is idle, vblank begins on line 241, and line 261
prepares the first visible line.

`Raster` is the state of the drawing.  A tick changes it, the unit's registers and the sink, and
nothing else: memory and cartridge are only read (`Scan.step`).
-/

namespace Famicom.Picture

abbrev ticksPerLine : Nat := 341

abbrev linesPerFrame : Nat := 262

abbrev ticksPerFrame : Nat := ticksPerLine * linesPerFrame

/-- Where the drawing stands, and the ticks since the frame was begun. -/
structure Beam where
  line : Nat := 0
  tick : Nat := 0
  elapsed : Nat := 0
  deriving DecidableEq, Repr, Inhabited

namespace Beam

/-- The line that prepares the picture. -/
def preparing : Nat := 261

def start : Beam := { line := preparing }

/-- One tick on. -/
def next (b : Beam) : Beam :=
  if b.tick + 1 < ticksPerLine then { b with tick := b.tick + 1, elapsed := b.elapsed + 1 }
  else
    { line := if b.line + 1 < linesPerFrame then b.line + 1 else 0
      tick := 0
      elapsed := b.elapsed + 1 }

end Beam

/-- The state of the drawing. -/
structure Raster where
  beam : Beam := {}
  background : Background := {}
  sprites : SpriteUnit := {}

/-- Goes to the beginning of a frame, leaving everything else as it stands. -/
def Raster.beginFrame (r : Raster) : Raster := { r with beam := .start }

/-! ### The pixel of a tick -/

namespace Raster

/-- The column of the pixel that this tick puts out. -/
def column (r : Raster) : Nat := r.beam.tick - 1

/-- The background's value and palette in this column, both zero where it is not shown. -/
def backgroundDot (r : Raster) (regs : Registers) : UInt8 × UInt8 :=
  if regs.mask.backgroundAt r.column then
    (r.background.pixel regs.fineX, r.background.pixelPalette regs.fineX)
  else (0, 0)

/-- The slot that shows in this column, if one does. -/
def spriteDot (r : Raster) (regs : Registers) : Option (Fin 8) :=
  if regs.mask.spritesAt r.column then r.sprites.front else none

/-- The colour of the pixel: a sprite's, unless the sprite stands behind an opaque background. -/
def colour (r : Raster) (m : Memory) (regs : Registers) : UInt8 :=
  let (value, palette) := r.backgroundDot regs
  match r.spriteDot regs with
  | some i =>
    let s := r.sprites.slot i
    if s.behind && value != 0 then m.colour regs.mask.colourMask palette value
    else m.colour regs.mask.colourMask (4 + s.palette) s.pixel
  | none => m.colour regs.mask.colourMask palette value

/-- The first sprite of the list meets an opaque background; the first two ticks do not count. -/
def hitsZero (r : Raster) (regs : Registers) : Bool :=
  (r.spriteDot regs).map Fin.val == some 0 && r.sprites.slotZero && (r.backgroundDot regs).1 != 0 &&
    3 ≤ r.beam.tick

end Raster

/-- The drawing, the registers it works on, and where the pixels go. -/
structure Scan (σ : Type) where
  raster : Raster
  regs : Registers
  sink : σ

namespace Scan

variable {κ σ : Type} [Cartridge κ] [PixelSink σ]

/-! ### The work of a tick -/

/-- Puts out a pixel and moves the shift registers on. -/
def emit (m : Memory) (s : Scan σ) : Scan σ :=
  let ⟨raster, regs, sink⟩ := s
  let colour := raster.colour m regs
  let hit := raster.hitsZero regs
  let sink := PixelSink.putPixel sink raster.column raster.beam.line colour
  let ⟨beam, background, sprites⟩ := raster
  ⟨⟨beam, background.shift, sprites.advance⟩,
    if hit then { regs with status := { regs.status with spriteZeroHit := true } } else regs, sink⟩

/-- Looks at one entry of the sprite list, and reports when it does not fit. -/
def evaluate (m : Memory) (index : Fin 64) (s : Scan σ) : Scan σ :=
  let entry := m.sprite index
  let height := s.regs.control.spriteHeight
  let line := s.raster.beam.line
  if !SpriteUnit.inRange entry height line then s
  else if s.raster.sprites.isFull then
    { s with regs := { s.regs with status := { s.regs.status with spriteOverflow := true } } }
  else
    let row := UInt8.ofNat (line - entry.y.toNat)
    { s with raster := { s.raster with
        sprites := s.raster.sprites.add index ⟨entry, row, .ofNat height⟩ } }

/-- The part of a visible tick that looks for the sprites of the next line: tick 64 forgets the old
ones, and each odd tick from 65 to 191 looks at one entry. -/
def findSprites (m : Memory) (s : Scan σ) : Scan σ :=
  let tick := s.raster.beam.tick
  if tick = 64 then
    { s with raster := { s.raster with sprites := s.raster.sprites.clearFound } }
  else if h : 65 ≤ tick ∧ tick ≤ 191 then
    if tick % 2 = 1 then s.evaluate m ⟨(tick - 65) / 2, by omega⟩ else s
  else s

/-- Moves the position in view, if anything is shown at all. -/
def scroll (f : Registers → ScrollAddress) (s : Scan σ) : Scan σ :=
  if s.regs.mask.rendering then { s with regs := { s.regs with v := f s.regs } } else s

def onBackground (f : Background → Background) (s : Scan σ) : Scan σ :=
  { s with raster := { s.raster with background := f s.raster.background } }

def onSprites (f : SpriteUnit → SpriteUnit) (s : Scan σ) : Scan σ :=
  { s with raster := { s.raster with sprites := f s.raster.sprites } }

/-- The part of a tick that fetches the background: every second tick fetches a byte, and every
eighth puts the tile into the shift registers and moves on to the next.  The first tile of a line
goes into the upper halves. -/
def fetchBackground (cart : κ) (m : Memory) (s : Scan σ) : Scan σ :=
  match s.raster.beam.tick % 8 with
  | 2 => s.onBackground fun b => b.fetchTile cart m s.regs
  | 4 => s.onBackground fun b => b.fetchPalette cart m s.regs
  | 6 => s.onBackground fun b => b.fetchLow cart m s.regs
  | 0 =>
    let first := s.raster.beam.tick = 328
    (s.onBackground fun b =>
      let b := b.fetchHigh cart m s.regs
      if first then b.loadFirst else b.load).scroll fun r => r.v.right
  | _ => s

/-- The part of a tick that fills the sprite slots, eight ticks for each. -/
def fetchSprites (cart : κ) (m : Memory) (s : Scan σ) : Scan σ :=
  let t := s.raster.beam.tick - 257
  if h : t / 8 < 8 then s.onSprites fun u => u.fetch cart m s.regs ⟨t / 8, h⟩ (t % 8) else s

/-! ### The ticks of a line -/

/-- A tick of a visible line. -/
def visible (cart : κ) (m : Memory) (s : Scan σ) : Scan σ :=
  let tick := s.raster.beam.tick
  if tick = 0 then s.onSprites .startLine
  else if tick ≤ 256 then ((s.findSprites m).emit m).fetchBackground cart m
  else if tick = 257 then s.scroll fun r => r.v.down.copyHorizontal r.t
  else if tick ≤ 320 then s.fetchSprites cart m
  else if tick ≤ 336 then s.fetchBackground cart m
  else s

/-- A tick of the line that prepares the picture. -/
def prepare (cart : κ) (m : Memory) (s : Scan σ) : Scan σ :=
  let tick := s.raster.beam.tick
  if tick = 1 then
    { s with regs := { s.regs with status := ⟨false, false, false⟩ } }.onSprites .clearCounts
  else if tick = 320 then (s.onSprites .clearCounts).scroll fun r => r.t
  else if 321 ≤ tick ∧ tick ≤ 336 then s.fetchBackground cart m
  else s

/-- One tick: the beam moves, and then the work of its new place is done. -/
def step (cart : κ) (m : Memory) (s : Scan σ) : Scan σ :=
  let s := { s with raster := { s.raster with beam := s.raster.beam.next } }
  let line := s.raster.beam.line
  let tick := s.raster.beam.tick
  if line < 240 then s.visible cart m
  else if line = 240 then
    if tick = 0 then { s with sink := PixelSink.frameComplete s.sink } else s
  else if line < Beam.preparing then
    if line = 241 ∧ tick = 1 then { s with regs := s.regs.enterVblank } else s
  else s.prepare cart m

def run (cart : κ) (m : Memory) : Nat → Scan σ → Scan σ
  | 0, s => s
  | n + 1, s => run cart m n (s.step cart m)

/-- Ticks until `target` of them have passed in the frame. -/
def runUntil (cart : κ) (m : Memory) (target : Nat) (s : Scan σ) : Scan σ :=
  run cart m (target - s.raster.beam.elapsed) s

end Scan

end Famicom.Picture
