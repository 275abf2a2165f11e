import Famicom.Proofs.Picture.Shares

/-!
# A frame row by row

From its beginning a frame goes through rows of 341 ticks: row 0 prepares the picture, row `y + 1`
draws line `y`.  `Scan.after cart m s row t` is the drawing `s` with tick `t` of a row behind it,
and what holds of all of a frame's ticks is proved along the rows (`rows_induction`).

Two facts are the same for every picture.  No tick changes how the picture is set up
(`after_follows`), and the sink is sent the pixels line by line, each in the colour that the parts
make of it at its tick (`after_sink`).
-/

namespace Famicom.Picture

variable {κ σ : Type} [Cartridge κ] {cart : κ} {m : Memory}

/-! ### Rows -/

/-- The beam with tick `t` of a row behind it. -/
def Beam.place (row t : Nat) : Beam :=
  ⟨(preparing + row) % linesPerFrame, t, ticksPerLine * row + t⟩

namespace Beam

theorem OnCourse.eq_place {b : Beam} (h : b.OnCourse) {row t : Nat}
    (he : b.elapsed = ticksPerLine * row + t) (ht : t ≤ 340) : b = .place row t := by
  obtain ⟨line, tick, elapsed⟩ := b
  obtain ⟨hline, htick⟩ := h
  simp only [ticksPerLine] at he hline htick
  subst he
  have hrow : (341 * row + t) / 341 = row := by omega
  have hmod : (341 * row + t) % 341 = t := by omega
  rw [hline, htick, hrow, hmod]
  rfl

theorem onCourse_place (row : Nat) {t : Nat} (ht : t ≤ 340) : (place row t).OnCourse := by
  have hrow : (ticksPerLine * row + t) / ticksPerLine = row := by
    simp only [ticksPerLine]
    omega
  have hmod : (ticksPerLine * row + t) % ticksPerLine = t := by
    simp only [ticksPerLine]
    omega
  constructor
  · rw [show (place row t).elapsed = ticksPerLine * row + t from rfl, hrow]
    rfl
  · exact hmod.symm

theorem next_place (row : Nat) {t : Nat} (h : t < 340) :
    (place row t).next = .place row (t + 1) :=
  (onCourse_place row (Nat.le_of_lt h)).next.eq_place (next_elapsed _) h

theorem next_place_last (row : Nat) : (place row 340).next = .place (row + 1) 0 :=
  (onCourse_place row (Nat.le_refl _)).next.eq_place (next_elapsed _) (Nat.zero_le _)

theorem place_line_le (row t : Nat) : (Beam.place row t).line ≤ preparing := by
  simp only [Beam.place, preparing, linesPerFrame]
  omega

theorem OnCourse.line_le {b : Beam} (h : b.OnCourse) : b.line ≤ preparing := by
  rw [h.1]
  simp only [preparing, linesPerFrame]
  omega

theorem place_line {line t : Nat} (h : line < 261) : (Beam.place (line + 1) t).line = line := by
  simp only [Beam.place, preparing, linesPerFrame]
  omega

theorem draws_place {y t : Nat} (hy : y < 240) :
    (Beam.place (y + 1) t).Draws ↔ 1 ≤ t ∧ t ≤ 256 := by
  rw [Draws, place_line (Nat.lt_trans hy (by decide))]
  exact and_iff_right hy

theorem not_draws_preparing (t : Nat) : ¬ (Beam.place 0 t).Draws := fun h =>
  absurd h.1 (Nat.not_lt.mpr (Nat.le_add_right 240 21))

theorem prefetches_place {row t : Nat} (hrow : row ≤ 240) :
    (Beam.place row t).Prefetches ↔ 321 ≤ t ∧ t ≤ 336 := by
  have hline : (Beam.place row t).line < 240 ∨ (Beam.place row t).line = preparing := by
    cases row with
    | zero => exact .inr rfl
    | succ y =>
      rw [place_line (by omega)]
      exact .inl hrow
  exact and_iff_right hline

end Beam

/-- A statement about every tick of the rows up to the last visible one, proved tick by tick. -/
theorem rows_induction {P : Nat → Nat → Prop} (start : P 0 0)
    (tick : ∀ row t, row ≤ 240 → t < 340 → P row t → P row (t + 1))
    (turn : ∀ row, row < 240 → P row 340 → P (row + 1) 0) {row t : Nat} (hrow : row ≤ 240)
    (ht : t ≤ 340) : P row t := by
  induction row generalizing t with
  | zero =>
    induction t with
    | zero => exact start
    | succ t ih => exact tick 0 t (Nat.zero_le _) ht (ih (Nat.le_of_succ_le ht))
  | succ row ih =>
    induction t with
    | zero => exact turn row hrow (ih (Nat.le_of_succ_le hrow) (Nat.le_refl _))
    | succ t iht => exact tick (row + 1) t hrow ht (iht (Nat.le_of_succ_le ht))

/-! ### What ticks leave alone -/

/-- The registers but for what ticks change: the position in view, the status, a pending
interrupt. -/
def Registers.Follows (r r' : Registers) : Prop :=
  r' = { r with v := r'.v, status := r'.status, nmiPending := r'.nmiPending }

namespace Registers.Follows

variable {r r' r'' : Registers}

theorem trans (h : r.Follows r') (h' : r'.Follows r'') : r.Follows r'' := by
  unfold Follows at *
  rw [h', h]

theorem control (h : r.Follows r') : r'.control = r.control := by rw [h]

theorem mask (h : r.Follows r') : r'.mask = r.mask := by rw [h]

theorem t (h : r.Follows r') : r'.t = r.t := by rw [h]

theorem fineX (h : r.Follows r') : r'.fineX = r.fineX := by rw [h]

end Registers.Follows

namespace Scan

variable [PixelSink σ] {s : Scan σ}

theorem step_line_le (h : s.raster.beam.line ≤ Beam.preparing) :
    (s.step cart m).raster.beam.line ≤ Beam.preparing := by
  rw [step_beam]
  exact Beam.next_line_le h

theorem step_follows (h : s.raster.beam.line ≤ Beam.preparing) :
    s.regs.Follows (s.step cart m).regs := by
  rw [step_shares (Beam.next_line_le h)]
  rfl

theorem run_follows (n : Nat) {s : Scan σ} (h : s.raster.beam.line ≤ Beam.preparing) :
    s.regs.Follows (run cart m n s).regs := by
  induction n generalizing s with
  | zero => rfl
  | succ n ih => exact (step_follows h).trans (ih (step_line_le h))

/-! ### The drawing along the rows -/

/-- The drawing with tick `t` of a row behind it. -/
def after (cart : κ) (m : Memory) (s : Scan σ) (row t : Nat) : Scan σ :=
  run cart m (ticksPerLine * row + t) s

theorem run_succ (n : Nat) (s : Scan σ) : run cart m (n + 1) s = (run cart m n s).step cart m :=
  run_add n 1 s

theorem after_tick (s : Scan σ) (row t : Nat) :
    after cart m s row (t + 1) = (after cart m s row t).step cart m :=
  run_succ _ s

theorem after_turn (s : Scan σ) (row : Nat) :
    after cart m s (row + 1) 0 = (after cart m s row 340).step cart m :=
  run_succ (ticksPerLine * row + 340) s

theorem after_follows (cart : κ) (m : Memory) (hs : s.raster.beam = .start) (row t : Nat) :
    s.regs.Follows (after cart m s row t).regs :=
  run_follows _ (hs ▸ Beam.onCourse_start.line_le)

theorem after_beam (cart : κ) (m : Memory) (hs : s.raster.beam = .start) (row : Nat) {t : Nat}
    (ht : t ≤ 340) :
    (after cart m s row t).raster.beam = .place row t := by
  have helapsed : (after cart m s row t).raster.beam.elapsed = _ := run_elapsed _ s
  rw [hs, Beam.start, Nat.zero_add] at helapsed
  exact (run_onCourse _ (hs ▸ Beam.onCourse_start)).eq_place helapsed ht

theorem after_next (cart : κ) (m : Memory) (hs : s.raster.beam = .start) (row : Nat) {t : Nat}
    (ht : t < 340) :
    (after cart m s row t).raster.beam.next = .place row (t + 1) := by
  rw [after_beam cart m hs row (Nat.le_of_lt ht), Beam.next_place _ ht]

theorem after_next_last (cart : κ) (m : Memory) (hs : s.raster.beam = .start) (row : Nat) :
    (after cart m s row 340).raster.beam.next = .place (row + 1) 0 := by
  rw [after_beam cart m hs row (Nat.le_refl _), Beam.next_place_last]

end Scan

/-! ### The sink -/

section Sink

variable [PixelSink σ]

def sendPixels (colour : Nat → Nat → UInt8) (y : Nat) (sink : σ) : Nat → σ
  | 0 => sink
  | n + 1 => PixelSink.putPixel (sendPixels colour y sink n) n y (colour n y)

def sendLines (colour : Nat → Nat → UInt8) (sink : σ) : Nat → σ
  | 0 => sink
  | n + 1 => sendPixels colour n (sendLines colour sink n) width

/-- Sends a whole picture, pixel by pixel and line by line, and that it is complete. -/
def sendPicture (colour : Nat → Nat → UInt8) (sink : σ) : σ :=
  PixelSink.frameComplete (sendLines colour sink height)

theorem sendPixels_congr {c c' : Nat → Nat → UInt8} {y n : Nat} (h : ∀ x < n, c x y = c' x y)
    (sink : σ) : sendPixels c y sink n = sendPixels c' y sink n := by
  induction n with
  | zero => rfl
  | succ n ih =>
    rw [sendPixels, sendPixels, h n (Nat.lt_succ_self n), ih fun x hx => h x (Nat.lt_succ_of_lt hx)]

theorem sendPicture_congr {c c' : Nat → Nat → UInt8}
    (h : ∀ x < width, ∀ y < height, c x y = c' x y) (sink : σ) :
    sendPicture c sink = sendPicture c' sink := by
  have hlines : ∀ n ≤ height, sendLines c sink n = sendLines c' sink n := by
    intro n hn
    induction n with
    | zero => rfl
    | succ n ih =>
      rw [sendLines, sendLines, ih (Nat.le_of_succ_le hn),
        sendPixels_congr fun x hx => h x hx n hn]
  rw [sendPicture, sendPicture, hlines height (Nat.le_refl _)]

namespace Scan

variable {s : Scan σ}

/-- The drawing as it stands before the pixel of column `x` of line `y`. -/
def before (cart : κ) (m : Memory) (s : Scan σ) (x y : Nat) : Scan σ := after cart m s (y + 1) x

theorem before_follows (cart : κ) (m : Memory) (hs : s.raster.beam = .start) (x y : Nat) :
    s.regs.Follows (s.before cart m x y).regs := after_follows cart m hs (y + 1) x

theorem before_next (cart : κ) (m : Memory) (hs : s.raster.beam = .start) {x : Nat} (hx : x < width)
    (y : Nat) : (s.before cart m x y).raster.beam.next = .place (y + 1) (x + 1) :=
  after_next cart m hs (y + 1) (Nat.lt_trans hx (by decide))

theorem before_column (cart : κ) (m : Memory) (hs : s.raster.beam = .start) {x : Nat}
    (hx : x < width) (y : Nat) : (s.before cart m x y).raster.moved.column = x :=
  congrArg (·.tick - 1) (before_next cart m hs hx y)

/-- The colour in which that pixel is put out. -/
def colourAt (cart : κ) (m : Memory) (s : Scan σ) (x y : Nat) : UInt8 :=
  (s.before cart m x y).raster.moved.colour m (s.before cart m x y).regs

/-- What the sink has been sent up to a tick of a row. -/
def sentAfter (cart : κ) (m : Memory) (s : Scan σ) : Nat → Nat → σ
  | 0, _ => s.sink
  | y + 1, t =>
    sendPixels (s.colourAt cart m) y (sendLines (s.colourAt cart m) s.sink y) (min t width)

theorem after_sink (hs : s.raster.beam = .start) {row t : Nat} (hrow : row ≤ 240) (ht : t ≤ 340) :
    (after cart m s row t).sink = s.sentAfter cart m row t := by
  refine rows_induction (P := fun row t => (after cart m s row t).sink = s.sentAfter cart m row t)
    rfl ?_ ?_ hrow ht
  · intro row t hrow ht ih
    have hnext := after_next cart m hs row ht
    have hpost : ¬ ((Beam.place row (t + 1)).line = 240 ∧ (Beam.place row (t + 1)).tick = 0) :=
      fun h => absurd h.2 (Nat.succ_ne_zero t)
    rw [after_tick, step_sink (hnext ▸ Beam.place_line_le _ _), ih, hnext, Beam.sinkShare]
    cases row with
    | zero => rw [if_neg (Beam.not_draws_preparing _), if_neg hpost, sentAfter, sentAfter]
    | succ y =>
      by_cases hlt : t < width
      · rw [if_pos ((Beam.draws_place hrow).mpr ⟨Nat.succ_pos t, hlt⟩), Beam.place_line (by omega),
          sentAfter, sentAfter, Nat.min_eq_left hlt, Nat.min_eq_left (Nat.le_of_lt hlt), sendPixels]
        rfl
      · have hdraws : ¬ (Beam.place (y + 1) (t + 1)).Draws :=
          fun h => hlt ((Beam.draws_place hrow).mp h).2
        have hge : width ≤ t := Nat.le_of_not_lt hlt
        rw [if_neg hdraws, if_neg hpost, sentAfter, sentAfter, Nat.min_eq_right hge,
          Nat.min_eq_right (Nat.le_succ_of_le hge)]
  · intro row hrow ih
    have hnext := after_next_last cart m hs row
    have hdraws : ¬ (Beam.place (row + 1) 0).Draws := fun h => absurd h.2.1 (Nat.not_succ_le_zero 0)
    have hpost : ¬ ((Beam.place (row + 1) 0).line = 240 ∧ (Beam.place (row + 1) 0).tick = 0) := by
      rw [Beam.place_line (by omega)]
      exact fun h => Nat.ne_of_lt hrow h.1
    rw [after_turn, step_sink (hnext ▸ Beam.place_line_le _ _), ih, hnext, Beam.sinkShare,
      if_neg hdraws, if_neg hpost]
    cases row <;> rfl

theorem runUntil_eq_step (cart : κ) (m : Memory) (hs : s.raster.beam = .start) :
    s.runUntil cart m (ticksPerLine * 241) = (after cart m s 240 340).step cart m := by
  have hrun : s.runUntil cart m (ticksPerLine * 241) = after cart m s 241 0 := by
    rw [runUntil, hs]
    rfl
  rw [hrun, after_turn]

/-- **The picture that a sink is sent.** -/
theorem runUntil_sink (hs : s.raster.beam = .start) :
    (s.runUntil cart m (ticksPerLine * 241)).sink = sendPicture (s.colourAt cart m) s.sink := by
  have hnext := after_next_last cart m hs 240
  have hdraws : ¬ (Beam.place (240 + 1) 0).Draws := fun h => absurd h.2.1 (Nat.not_succ_le_zero 0)
  rw [runUntil_eq_step cart m hs, step_sink (hnext ▸ Beam.place_line_le _ _),
    after_sink hs (Nat.le_refl _) (Nat.le_refl _), hnext, Beam.sinkShare, if_neg hdraws, if_pos]
  · rfl
  · exact ⟨rfl, rfl⟩

end Scan

end Sink

end Famicom.Picture
