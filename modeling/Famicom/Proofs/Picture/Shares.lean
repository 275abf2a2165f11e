import Famicom.Proofs.Picture.Ticks
import Mathlib.Tactic.SplitIfs

/-!
# The parts' shares of a tick

A tick works on the background, the sprites, the registers and the sink at once.  Here it is taken
apart: what becomes of each part is a function of that part, the registers and the place of the beam
(`Background.share`, `SpriteUnit.share` and their like), and a tick is these together
(`Scan.step_shares`).  What is proved of one part later needs no look at the others.
-/

namespace Famicom.Picture

variable {κ σ : Type} [Cartridge κ] {cart : κ} {m : Memory}

/-! ### The background -/

def Background.fetch (cart : κ) (m : Memory) (r : Registers) (tick : Nat) (b : Background) :
    Background :=
  match tick % 8 with
  | 2 => b.fetchTile cart m r
  | 4 => b.fetchPalette cart m r
  | 6 => b.fetchLow cart m r
  | 0 =>
    let b := b.fetchHigh cart m r
    if tick = 328 then b.loadFirst else b.load
  | _ => b

def Registers.vFetched (r : Registers) (tick : Nat) : ScrollAddress :=
  if tick % 8 = 0 ∧ r.mask.rendering then r.v.right else r.v

theorem Scan.fetchBackground_eq (s : Scan σ) :
    s.fetchBackground cart m =
      { s with
        raster := { s.raster with
          background := s.raster.background.fetch cart m s.regs s.raster.beam.tick }
        regs := { s.regs with v := s.regs.vFetched s.raster.beam.tick } } := by
  obtain ⟨⟨⟨line, tick, elapsed⟩, background, sprites⟩, regs, sink⟩ := s
  unfold Scan.fetchBackground Background.fetch Registers.vFetched
  dsimp only
  split
  · simp_all [Scan.onBackground]
  · simp_all [Scan.onBackground]
  · simp_all [Scan.onBackground]
  · unfold Scan.scroll
    simp_all [Scan.onBackground]
    split <;> rfl
  · simp_all

theorem Scan.scroll_eq (f : Registers → ScrollAddress) (s : Scan σ) :
    s.scroll f =
      { s with
        regs := { s.regs with v := if s.regs.mask.rendering then f s.regs else s.regs.v } } := by
  unfold scroll
  split <;> rfl

/-! ### The sprites -/

namespace SpriteUnit

/-- An entry of the sprite list as it is noted down when it is found on a line. -/
def note (m : Memory) (c : Control) (line : Nat) (i : Fin 64) : FoundSprite :=
  ⟨m.sprite i, .ofNat (line - (m.sprite i).y.toNat), .ofNat c.spriteHeight⟩

/-- The entry reaches the line after `line`. -/
def reaches (m : Memory) (c : Control) (line : Nat) (i : Fin 64) : Bool :=
  inRange (m.sprite i) c.spriteHeight line

/-- The entry that a tick looks at, if it looks at one. -/
def considered (tick : Nat) : Option (Fin 64) :=
  if h : 65 ≤ tick ∧ tick ≤ 191 then
    if tick % 2 = 1 then some ⟨(tick - 65) / 2, by omega⟩ else none
  else none

/-- The entry that a tick finds, if it finds one. -/
def caught (m : Memory) (c : Control) (b : Beam) : Option (Fin 64) :=
  (considered b.tick).filter (reaches m c b.line)

/-- The share that finding has of a tick. -/
def find (m : Memory) (c : Control) (b : Beam) (u : SpriteUnit) : SpriteUnit :=
  if b.tick = 64 then u.clearFound
  else match caught m c b with
    | some i => u.add i (note m c b.line i)
    | none => u

/-- The tick finds an entry for which there is no room. -/
def overflows (m : Memory) (c : Control) (b : Beam) (u : SpriteUnit) : Bool :=
  (caught m c b).isSome && u.isFull

/-- The share that fetching has of a tick. -/
def load (cart : κ) (m : Memory) (r : Registers) (tick : Nat) (u : SpriteUnit) : SpriteUnit :=
  if h : (tick - 257) / 8 < 8 then u.fetch cart m r ⟨(tick - 257) / 8, h⟩ ((tick - 257) % 8) else u

end SpriteUnit

def Registers.noteOverflow (r : Registers) (overflow : Bool) : Registers :=
  { r with status := { r.status with spriteOverflow := r.status.spriteOverflow || overflow } }

def Registers.noteHit (r : Registers) (hit : Bool) : Registers :=
  { r with status := { r.status with spriteZeroHit := r.status.spriteZeroHit || hit } }

theorem Scan.evaluate_eq (i : Fin 64) (s : Scan σ) :
    s.evaluate m i =
      if SpriteUnit.reaches m s.regs.control s.raster.beam.line i then
        { s with
          raster := { s.raster with
            sprites := s.raster.sprites.add i
              (SpriteUnit.note m s.regs.control s.raster.beam.line i) }
          regs := s.regs.noteOverflow s.raster.sprites.isFull }
      else s := by
  obtain ⟨⟨beam, background, sprites⟩, regs, sink⟩ := s
  unfold Scan.evaluate SpriteUnit.reaches SpriteUnit.note SpriteUnit.isFull SpriteUnit.add
    Registers.noteOverflow
  dsimp only
  by_cases hin : SpriteUnit.inRange (m.sprite i) regs.control.spriteHeight beam.line = true
  · by_cases hfull : 8 ≤ sprites.foundCount
    · simp [hin, hfull, Nat.not_lt.mpr hfull]
    · simp [hin, hfull, Nat.not_le.mp hfull]
  · simp [hin]

theorem Scan.findSprites_eq (s : Scan σ) :
    s.findSprites m =
      { s with
        raster := { s.raster with
          sprites := s.raster.sprites.find m s.regs.control s.raster.beam }
        regs := s.regs.noteOverflow
          (s.raster.sprites.overflows m s.regs.control s.raster.beam) } := by
  obtain ⟨⟨⟨line, tick, elapsed⟩, background, sprites⟩, regs, sink⟩ := s
  unfold Scan.findSprites SpriteUnit.find SpriteUnit.overflows SpriteUnit.caught
    SpriteUnit.considered
  dsimp only
  split
  · rename_i htick
    subst htick
    simp [Registers.noteOverflow]
  · split
    · split
      · rw [Scan.evaluate_eq]
        dsimp only
        split
        · rename_i hreaches
          simp [Option.filter, hreaches]
        · rename_i hreaches
          simp [Option.filter, hreaches, Registers.noteOverflow]
      · simp [Registers.noteOverflow]
    · simp [Registers.noteOverflow]

theorem Scan.fetchSprites_eq (s : Scan σ) :
    s.fetchSprites cart m =
      { s with raster := { s.raster with
        sprites := s.raster.sprites.load cart m s.regs s.raster.beam.tick } } := by
  unfold Scan.fetchSprites SpriteUnit.load
  dsimp only
  split <;> rfl

variable [PixelSink σ]

theorem Scan.emit_eq (s : Scan σ) :
    s.emit m =
      { raster := { s.raster with
          background := s.raster.background.shift
          sprites := s.raster.sprites.advance }
        regs := s.regs.noteHit (s.raster.hitsZero s.regs)
        sink := PixelSink.putPixel s.sink s.raster.column s.raster.beam.line
          (s.raster.colour m s.regs) } := by
  obtain ⟨⟨beam, background, sprites⟩, regs, sink⟩ := s
  unfold Scan.emit Registers.noteHit
  dsimp only
  split
  · rename_i hhit
    simp [hhit]
  · rename_i hhit
    simp [hhit]

/-! ### Pixels -/

theorem SpriteUnit.find_slots (c : Control) (b : Beam) (u : SpriteUnit) :
    (u.find m c b).slots = u.slots ∧ (u.find m c b).slotCount = u.slotCount ∧
      (u.find m c b).slotZero = u.slotZero := by
  unfold find
  split
  · exact ⟨rfl, rfl, rfl⟩
  · split
    · unfold add
      split <;> exact ⟨rfl, rfl, rfl⟩
    · exact ⟨rfl, rfl, rfl⟩

/-- What is found for the next line does not show on this one. -/
theorem Raster.colour_find (r : Raster) (regs regs' : Registers) (b : Beam)
    (hmask : regs'.mask = regs.mask) (hfine : regs'.fineX = regs.fineX) :
    Raster.colour { r with sprites := r.sprites.find m regs.control b } m regs' =
      r.colour m regs := by
  obtain ⟨hslots, hcount, -⟩ := r.sprites.find_slots (m := m) regs.control b
  unfold colour spriteDot backgroundDot column SpriteUnit.front SpriteUnit.slot
  rw [hmask, hfine]
  simp only [hslots, hcount]

theorem Raster.hitsZero_find (r : Raster) (regs regs' : Registers) (b : Beam)
    (hmask : regs'.mask = regs.mask) (hfine : regs'.fineX = regs.fineX) :
    Raster.hitsZero { r with sprites := r.sprites.find m regs.control b } regs' =
      r.hitsZero regs := by
  obtain ⟨hslots, hcount, hzero⟩ := r.sprites.find_slots (m := m) regs.control b
  unfold hitsZero spriteDot backgroundDot column SpriteUnit.front SpriteUnit.slot
  rw [hmask, hfine]
  simp only [hslots, hcount, hzero]

/-! ### The shares -/

/-- The raster with the beam one tick on, as the work of that tick finds it. -/
def Raster.moved (r : Raster) : Raster := { r with beam := r.beam.next }

/-- The tick puts out a pixel. -/
def Beam.Draws (b : Beam) : Prop := b.line < 240 ∧ 1 ≤ b.tick ∧ b.tick ≤ 256

/-- The tick fetches the first tiles of the next line. -/
def Beam.Prefetches (b : Beam) : Prop :=
  (b.line < 240 ∨ b.line = Beam.preparing) ∧ 321 ≤ b.tick ∧ b.tick ≤ 336

instance (b : Beam) : Decidable b.Draws := inferInstanceAs (Decidable (_ ∧ _))

instance (b : Beam) : Decidable b.Prefetches := inferInstanceAs (Decidable (_ ∧ _))

def Background.share (cart : κ) (m : Memory) (r : Registers) (b : Beam) (bg : Background) :
    Background :=
  if b.Draws then bg.shift.fetch cart m r b.tick
  else if b.Prefetches then bg.fetch cart m r b.tick
  else bg

def SpriteUnit.share (cart : κ) (m : Memory) (r : Registers) (b : Beam) (u : SpriteUnit) :
    SpriteUnit :=
  if b.Draws then (u.find m r.control b).advance
  else if b.line < 240 then
    if b.tick = 0 then u.startLine
    else if 258 ≤ b.tick ∧ b.tick ≤ 320 then u.load cart m r b.tick
    else u
  else if b.line = Beam.preparing ∧ (b.tick = 1 ∨ b.tick = 320) then u.clearCounts
  else u

namespace Registers

def vShare (r : Registers) (b : Beam) : ScrollAddress :=
  if b.Draws ∨ b.Prefetches then r.vFetched b.tick
  else if r.mask.rendering then
    if b.line < 240 ∧ b.tick = 257 then r.v.down.copyHorizontal r.t
    else if b.line = Beam.preparing ∧ b.tick = 320 then r.t
    else r.v
  else r.v

def vblankBegins (b : Beam) : Bool := b.line == 241 && b.tick == 1

/-- The status after a tick that may have found a hit or too many sprites. -/
def statusShare (r : Registers) (b : Beam) (hit overflow : Bool) : Status :=
  if b.Draws then ⟨r.status.inVblank, r.status.spriteZeroHit || hit,
    r.status.spriteOverflow || overflow⟩
  else if b.line = Beam.preparing ∧ b.tick = 1 then ⟨false, false, false⟩
  else { r.status with inVblank := r.status.inVblank || vblankBegins b }

end Registers

/-- The sink after a tick whose pixel, if it puts out one, has the given colour. -/
def Beam.sinkShare (b : Beam) (colour : UInt8) (sink : σ) : σ :=
  if b.Draws then PixelSink.putPixel sink (b.tick - 1) b.line colour
  else if b.line = 240 ∧ b.tick = 0 then PixelSink.frameComplete sink
  else sink

/-- The drawing put together again from the shares of a tick. -/
def Scan.shares (cart : κ) (m : Memory) (s : Scan σ) : Scan σ :=
  let b := s.raster.beam.next
  { raster :=
      { beam := b
        background := s.raster.background.share cart m s.regs b
        sprites := s.raster.sprites.share cart m s.regs b }
    regs := { s.regs with
      v := s.regs.vShare b
      status := s.regs.statusShare b (s.raster.moved.hitsZero s.regs)
        (s.raster.sprites.overflows m s.regs.control b)
      nmiPending := s.regs.nmiPending ||
        (Registers.vblankBegins b && s.regs.control.nmiEnabled) }
    sink := b.sinkShare (s.raster.moved.colour m s.regs) s.sink }

namespace Scan

variable {s : Scan σ}

/-- The drawing with the beam one tick on. -/
def moved (s : Scan σ) : Scan σ := { s with raster := s.raster.moved }

theorem step_visible (hline : s.raster.beam.next.line < 240) :
    s.step cart m = s.moved.visible cart m := if_pos hline

theorem step_preparing (hline : s.raster.beam.next.line = Beam.preparing) :
    s.step cart m = s.moved.prepare cart m := by
  unfold step
  simp only [hline, Beam.preparing]
  rfl

theorem step_draw (h : s.raster.beam.next.Draws) : s.step cart m = s.shares cart m := by
  obtain ⟨hline, h₁, h₂⟩ := id h
  have hvisible : s.step cart m =
      ((s.moved.findSprites m).emit m).fetchBackground cart m := by
    unfold step visible
    simp only [if_pos hline, if_neg (Nat.ne_of_gt h₁), if_pos h₂]
    rfl
  have hhit := s.raster.moved.hitsZero_find (m := m) s.regs
    (s.regs.noteOverflow (s.raster.sprites.overflows m s.regs.control s.raster.beam.next))
    s.raster.beam.next rfl rfl
  have hcolour := s.raster.moved.colour_find (m := m) s.regs
    (s.regs.noteOverflow (s.raster.sprites.overflows m s.regs.control s.raster.beam.next))
    s.raster.beam.next rfl rfl
  have hvblank : Registers.vblankBegins s.raster.beam.next = false := by
    simp only [Registers.vblankBegins, Bool.and_eq_false_iff, beq_eq_false_iff_ne]
    omega
  unfold shares Background.share SpriteUnit.share Registers.vShare Registers.statusShare
    Beam.sinkShare
  rw [hvisible, findSprites_eq, emit_eq, fetchBackground_eq]
  simp only [h, true_or, if_true, hvblank, Bool.false_and, Bool.or_false]
  rw [← hhit, ← hcolour]
  rfl

theorem step_fetch (hline : s.raster.beam.next.line < 240) (h : ¬ s.raster.beam.next.Draws) :
    s.step cart m = s.shares cart m := by
  have hpreparing : s.raster.beam.next.line ≠ Beam.preparing := by
    simp only [Beam.preparing]
    omega
  have hpost : s.raster.beam.next.line ≠ 240 := by omega
  have hvblank : Registers.vblankBegins s.raster.beam.next = false := by
    simp only [Registers.vblankBegins, Bool.and_eq_false_iff, beq_eq_false_iff_ne]
    omega
  have htick : ¬ (1 ≤ s.raster.beam.next.tick ∧ s.raster.beam.next.tick ≤ 256) :=
    fun ht => h ⟨hline, ht⟩
  rw [step_visible hline]
  unfold visible shares Background.share SpriteUnit.share Registers.vShare
    Registers.statusShare Beam.sinkShare Beam.Prefetches
  simp only [hline, h, hpreparing, hpost, hvblank, if_true, if_false, false_or, true_or, true_and,
    false_and, Bool.false_and, Bool.or_false, fetchBackground_eq, fetchSprites_eq, scroll_eq,
    onSprites, moved, Raster.moved]
  split_ifs <;> first | omega | rfl

/-- A tick on the line that prepares the picture. -/
theorem step_prepare (hline : s.raster.beam.next.line = Beam.preparing) :
    s.step cart m = s.shares cart m := by
  have hdraws : ¬ s.raster.beam.next.Draws := by
    unfold Beam.Draws
    rw [hline, Beam.preparing]
    omega
  have hvblank : Registers.vblankBegins s.raster.beam.next = false := by
    rw [Registers.vblankBegins, hline]
    rfl
  rw [step_preparing hline]
  unfold prepare shares Background.share SpriteUnit.share Registers.vShare Registers.statusShare
    Beam.sinkShare Beam.Prefetches
  simp only [hline, hdraws, hvblank, Beam.preparing, if_false, false_or, or_true, true_and,
    false_and, Bool.false_and, Bool.or_false, fetchBackground_eq, scroll_eq, onSprites, moved,
    Raster.moved, Nat.reduceLT, Nat.reduceEqDiff]
  split_ifs <;> first | omega | rfl

/-- Between the last visible line and the line that prepares the next picture, the end of the
picture and the beginning of vblank are noted. -/
theorem step_between (h₁ : 240 ≤ s.raster.beam.next.line)
    (h₂ : s.raster.beam.next.line < Beam.preparing) : s.step cart m = s.shares cart m := by
  have hvisible : ¬ s.raster.beam.next.line < 240 := Nat.not_lt.mpr h₁
  have hpreparing : s.raster.beam.next.line ≠ Beam.preparing := Nat.ne_of_lt h₂
  have hdraws : ¬ s.raster.beam.next.Draws := fun h => hvisible h.1
  unfold step shares Background.share SpriteUnit.share Registers.vShare Registers.statusShare
    Beam.sinkShare Beam.Prefetches
  simp only [hvisible, hpreparing, hdraws, h₂, if_true, if_false, or_false, false_and]
  by_cases hvblank : s.raster.beam.next.line = 241 ∧ s.raster.beam.next.tick = 1
  · have hbegins : Registers.vblankBegins s.raster.beam.next = true := by
      simpa [Registers.vblankBegins] using hvblank
    simp [hvblank, hbegins, Registers.enterVblank]
  · have hbegins : Registers.vblankBegins s.raster.beam.next = false := by
      simpa [Registers.vblankBegins] using hvblank
    simp only [if_neg hvblank, hbegins, Bool.false_and, Bool.or_false, ite_self]
    split_ifs <;> first | omega | rfl

/-- **A tick is the shares of its parts.** -/
theorem step_shares (hline : s.raster.beam.next.line ≤ Beam.preparing) :
    s.step cart m = s.shares cart m := by
  rcases Nat.lt_or_ge s.raster.beam.next.line 240 with hvisible | hge
  · by_cases hdraws : s.raster.beam.next.Draws
    · exact step_draw hdraws
    · exact step_fetch hvisible hdraws
  · rcases Nat.lt_or_eq_of_le hline with hlt | heq
    · exact step_between hge hlt
    · exact step_prepare heq

section Parts

variable (hline : s.raster.beam.next.line ≤ Beam.preparing)
include hline

theorem step_background :
    (s.step cart m).raster.background =
      s.raster.background.share cart m s.regs s.raster.beam.next := by
  rw [step_shares hline]
  rfl

theorem step_sprites :
    (s.step cart m).raster.sprites = s.raster.sprites.share cart m s.regs s.raster.beam.next := by
  rw [step_shares hline]
  rfl

theorem step_v : (s.step cart m).regs.v = s.regs.vShare s.raster.beam.next := by
  rw [step_shares hline]
  rfl

theorem step_status :
    (s.step cart m).regs.status =
      s.regs.statusShare s.raster.beam.next (s.raster.moved.hitsZero s.regs)
        (s.raster.sprites.overflows m s.regs.control s.raster.beam.next) := by
  rw [step_shares hline]
  rfl

theorem step_sink :
    (s.step cart m).sink =
      s.raster.beam.next.sinkShare (s.raster.moved.colour m s.regs) s.sink := by
  rw [step_shares hline]
  rfl

end Parts

end Scan

end Famicom.Picture
