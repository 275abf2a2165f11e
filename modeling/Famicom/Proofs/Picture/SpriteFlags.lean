import Famicom.Proofs.Picture.Scrolled
import Famicom.Proofs.Picture.SpritePixels

/-!
# The flags of the sprites

Two flags of the status say what became of the sprites of a picture.  Each is cleared before the
picture begins and set by what happens at a pixel, so at the end it says whether that has happened
anywhere (`Scan.after_flag`).  A line finds an entry too many exactly if nine entries show on the
next one (`exists_overflows`); the first entry of the sprite list is drawn from the first slot, so
it is hit where its own pixels meet the background's (`before_hitsZero`).
-/

namespace Famicom.Picture

variable {κ σ : Type} [Cartridge κ] {cart : κ} {m : Memory} {r r' : Registers}

namespace Scan

variable [PixelSink σ] {s : Scan σ}

/-! ### Flags -/

/-- By tick `t` of a row the pixel of column `x` of line `y` is out. -/
def PixelOut (row t x y : Nat) : Prop := x < width ∧ (y + 1 < row ∨ y + 1 = row ∧ x < t)

theorem not_pixelOut_preparing (t x y : Nat) : ¬ PixelOut 0 t x y := by
  unfold PixelOut
  omega

theorem pixelOut_tick {t x y line : Nat} (ht : t < width) :
    PixelOut (line + 1) (t + 1) x y ↔ PixelOut (line + 1) t x y ∨ x = t ∧ y = line := by
  unfold PixelOut
  omega

theorem pixelOut_late {row t x y : Nat} (ht : width ≤ t) :
    PixelOut row (t + 1) x y ↔ PixelOut row t x y := by
  unfold PixelOut
  omega

theorem pixelOut_turn {row x y : Nat} : PixelOut (row + 1) 0 x y ↔ PixelOut row 340 x y := by
  have hwidth : width < 340 := by decide
  unfold PixelOut
  omega

/-- A flag of the status that the preparing line clears and an event at a pixel sets. -/
def PixelFlag (cart : κ) (m : Memory) (flag : Status → Bool) (event : Scan σ → Bool) : Prop :=
  ∀ s : Scan σ, s.raster.beam.next.line ≤ Beam.preparing →
    flag (s.step cart m).regs.status =
      if s.raster.beam.next.Draws then flag s.regs.status || event s
      else if s.raster.beam.next.line = Beam.preparing ∧ s.raster.beam.next.tick = 1 then false
      else flag s.regs.status

theorem spriteZeroHit_pixelFlag :
    PixelFlag (σ := σ) cart m Status.spriteZeroHit fun s => s.raster.moved.hitsZero s.regs := by
  intro s hline
  rw [step_status hline, Registers.statusShare]
  split_ifs <;> rfl

theorem spriteOverflow_pixelFlag :
    PixelFlag (σ := σ) cart m Status.spriteOverflow fun s =>
      s.raster.sprites.overflows m s.regs.control s.raster.beam.next := by
  intro s hline
  rw [step_status hline, Registers.statusShare]
  split_ifs <;> rfl

section Flag

variable {flag : Status → Bool} {event : Scan σ → Bool} (hf : PixelFlag cart m flag event)
include hf

/-- Where no pixel is put out, such a flag stays, but for the tick that clears it. -/
theorem PixelFlag.kept (hline : s.raster.beam.next.line ≤ Beam.preparing)
    (hdraws : ¬ s.raster.beam.next.Draws) (ht : s.raster.beam.next.tick ≠ 1) :
    flag (s.step cart m).regs.status = flag s.regs.status := by
  rw [hf s hline, if_neg hdraws, if_neg fun h => ht h.2]

theorem PixelFlag.turn (hs : s.raster.beam = .start) (row : Nat) :
    flag ((after cart m s row 340).step cart m).regs.status =
      flag (after cart m s row 340).regs.status := by
  have hnext := after_next_last cart m hs row
  apply hf.kept
  · exact hnext ▸ Beam.place_line_le _ _
  · exact hnext ▸ fun h => absurd h.2.1 (Nat.not_succ_le_zero 0)
  · rw [hnext]
    exact Nat.zero_ne_one

/-- **Such a flag tells whether its event has happened**, whatever it was before. -/
theorem after_flag (hs : s.raster.beam = .start) {row t : Nat} (hrow : row ≤ 240) (ht : t ≤ 340) :
    0 < row ∨ 0 < t →
      (flag (after cart m s row t).regs.status = true ↔
        ∃ x y, PixelOut row t x y ∧ event (s.before cart m x y) = true) := by
  refine rows_induction
    (P := fun row t => 0 < row ∨ 0 < t →
      (flag (after cart m s row t).regs.status = true ↔
        ∃ x y, PixelOut row t x y ∧ event (s.before cart m x y) = true)) ?_ ?_ ?_ hrow ht
  · intro h
    omega
  · intro row t hrow ht ih _
    have hnext := after_next cart m hs row ht
    have hline := hnext ▸ Beam.place_line_le row (t + 1)
    rw [after_tick]
    cases row with
    | zero =>
      have hnone (t : Nat) : ¬ ∃ x y, PixelOut 0 t x y ∧ event (s.before cart m x y) = true := by
        rintro ⟨x, y, hout, -⟩
        exact not_pixelOut_preparing t x y hout
      have hdraws := hnext ▸ Beam.not_draws_preparing (t + 1)
      rcases Nat.eq_zero_or_pos t with rfl | hpos
      · have hclears : (Beam.place 0 1).line = Beam.preparing ∧ (Beam.place 0 1).tick = 1 :=
          ⟨rfl, rfl⟩
        rw [hf _ hline, if_neg hdraws, hnext, if_pos hclears]
        exact iff_of_false Bool.false_ne_true (hnone 1)
      · have hlate : (Beam.place 0 (t + 1)).tick ≠ 1 := Nat.ne_of_gt (Nat.succ_lt_succ hpos)
        rw [hf.kept hline hdraws (hnext ▸ hlate), ih (.inr hpos)]
        exact iff_of_false (hnone t) (hnone (t + 1))
    | succ y =>
      by_cases hlt : t < width
      · have hdraws := (Beam.draws_place hrow).mpr ⟨Nat.succ_pos t, hlt⟩
        rw [hf _ hline, if_pos (hnext ▸ hdraws), Bool.or_eq_true, ih (.inl (Nat.succ_pos y))]
        simp only [pixelOut_tick hlt]
        constructor
        · rintro (⟨x, z, hout, hevent⟩ | hevent)
          · exact ⟨x, z, .inl hout, hevent⟩
          · exact ⟨t, y, .inr ⟨rfl, rfl⟩, hevent⟩
        · rintro ⟨x, z, hout | ⟨rfl, rfl⟩, hevent⟩
          · exact .inl ⟨x, z, hout, hevent⟩
          · exact .inr hevent
      · have hge : 256 ≤ t := Nat.le_of_not_lt hlt
        have hdraws : ¬ (Beam.place (y + 1) (t + 1)).Draws := fun h =>
          hlt ((Beam.draws_place hrow).mp h).2
        have hlate : (Beam.place (y + 1) (t + 1)).tick ≠ 1 := by
          show t + 1 ≠ 1
          omega
        rw [hf.kept hline (hnext ▸ hdraws) (hnext ▸ hlate), ih (.inl (Nat.succ_pos y))]
        simp only [pixelOut_late hge]
  · intro row hrow ih _
    rw [after_turn, hf.turn hs, ih (.inr (by decide))]
    simp only [pixelOut_turn]

theorem runUntil_flag (hs : s.raster.beam = .start) :
    flag (s.runUntil cart m (ticksPerLine * 241)).regs.status = true ↔
      ∃ x < width, ∃ y < height, event (s.before cart m x y) = true := by
  rw [runUntil_eq_step cart m hs, hf.turn hs,
    after_flag hf hs (Nat.le_refl _) (Nat.le_refl _) (.inl (by decide))]
  constructor
  · rintro ⟨x, y, ⟨hx, hy⟩, hevent⟩
    refine ⟨x, hx, y, ?_, hevent⟩
    show y < 240
    omega
  · rintro ⟨x, hx, y, hy, hevent⟩
    refine ⟨x, y, ⟨hx, ?_⟩, hevent⟩
    have hlt : x < 340 := Nat.lt_trans hx (by decide)
    have hle : y < 240 := hy
    omega

end Flag

end Scan

/-! ### Too many sprites -/

namespace SpriteUnit

variable {c : Control} {y t : Nat} {u : SpriteUnit}

/-- A tick finds an entry too many when eight have been found before it. -/
theorem overflows_iff {b : Beam} (hline : b.line = y) (htick : b.tick = t + 1)
    (h : Found m c y (showing m c (entriesBy t) (y + 1)) u) :
    u.overflows m c b = true ↔
      ∃ i, considered (t + 1) = some i ∧ reaches m c y i = true ∧
        8 ≤ (showing m c (entriesBy t) (y + 1)).length := by
  have hfull : u.isFull = true ↔ 8 ≤ (showing m c (entriesBy t) (y + 1)).length := by
    unfold isFull
    rw [decide_eq_true_eq, h.count]
    omega
  unfold overflows caught
  rw [hline, htick, Bool.and_eq_true, hfull]
  cases considered (t + 1) with
  | none => simp
  | some i => by_cases hreaches : reaches m c y i = true <;> simp [Option.filter_some, hreaches]

theorem nine_le_showing_tick :
    9 ≤ (showing m c (entriesBy (t + 1)) (y + 1)).length ↔
      9 ≤ (showing m c (entriesBy t) (y + 1)).length ∨
        ∃ i, considered (t + 1) = some i ∧ reaches m c y i = true ∧
          8 ≤ (showing m c (entriesBy t) (y + 1)).length := by
  cases hconsidered : considered (t + 1) with
  | none =>
    rw [entriesBy_of_not_considered hconsidered]
    simp
  | some i =>
    obtain ⟨hbefore, hafter⟩ := entriesBy_of_considered hconsidered
    rw [hbefore, hafter, showing_succ, List.length_append]
    by_cases hreaches : reaches m c y i = true
    · simp [hreaches]
      omega
    · simp [hreaches]

end SpriteUnit

namespace Scan

variable [PixelSink σ] {s : Scan σ}

/-- **A line finds too many sprites exactly if nine show on the next one.** -/
theorem exists_overflows (cart : κ) (m : Memory) (hs : s.raster.beam = .start) {y : Nat}
    (hy : y < height) :
    (∃ x < width,
      (s.before cart m x y).raster.sprites.overflows m (s.before cart m x y).regs.control
        (s.before cart m x y).raster.beam.next = true) ↔
      9 ≤ (SpriteUnit.showing m s.regs.control 64 (y + 1)).length := by
  have hupto : ∀ n ≤ width,
      (∃ x < n, (s.before cart m x y).raster.sprites.overflows m
        (s.before cart m x y).regs.control (s.before cart m x y).raster.beam.next = true) ↔
          9 ≤ (SpriteUnit.showing m s.regs.control (SpriteUnit.entriesBy n) (y + 1)).length := by
    intro n hn
    induction n with
    | zero =>
      have hnone : SpriteUnit.showing m s.regs.control (SpriteUnit.entriesBy 0) (y + 1) = [] :=
        SpriteUnit.showing_zero m s.regs.control (y + 1)
      rw [hnone]
      simp
    | succ n ih =>
      have hlt : n < 340 := Nat.lt_of_lt_of_le hn (by decide)
      have hnext := before_next cart m hs hn y
      have hfound := (after_spritesOnRow cart m hs (y + 1) hy
        (Nat.le_of_lt hlt)).found (.inl (Nat.succ_pos y))
      have hcontrol := (before_follows cart m hs n y).control
      have hoverflows := SpriteUnit.overflows_iff (y := y)
        (hnext ▸ Beam.place_line (Nat.lt_trans hy (by decide))) (congrArg (·.tick) hnext) hfound
      rw [SpriteUnit.nine_le_showing_tick, ← ih (Nat.le_of_succ_le hn), ← hoverflows]
      constructor
      · rintro ⟨x, hx, h⟩
        rcases Nat.lt_succ_iff_lt_or_eq.mp hx with hx | rfl
        · exact .inl ⟨x, hx, h⟩
        · rw [hcontrol] at h
          exact .inr h
      · rintro (⟨x, hx, h⟩ | h)
        · exact ⟨x, Nat.lt_succ_of_lt hx, h⟩
        · refine ⟨n, Nat.lt_succ_self n, ?_⟩
          rw [hcontrol]
          exact h
  exact hupto width (Nat.le_refl _)

end Scan

/-! ### The first entry of the sprite list -/

namespace SpriteUnit

variable {c : Control} {x y : Nat}

theorem head?_candidates : (candidates m c (y + 1)).head? = some 0 ↔ reaches m c y 0 = true := by
  have hall : List.finRange 64 = 0 :: (List.finRange 63).map Fin.succ := List.finRange_succ
  rw [candidates, hall, List.filter_cons]
  by_cases hreaches : reaches m c y 0 = true
  · rw [if_pos hreaches]
    exact iff_of_true rfl hreaches
  · rw [if_neg hreaches]
    refine iff_of_false ?_ hreaches
    intro hhead
    have hmem := List.mem_of_mem_take (List.mem_of_head? hhead)
    obtain ⟨j, -, hj⟩ := List.mem_map.mp (List.mem_filter.mp hmem).1
    exact Fin.succ_ne_zero j hj

theorem nodup_candidates (m : Memory) (c : Control) (y : Nat) : (candidates m c y).Nodup := by
  cases y with
  | zero => exact List.nodup_nil
  | succ y => exact ((List.nodup_finRange 64).filter _).sublist (List.take_sublist 8 _)

end SpriteUnit

namespace Memory

/-- Where the first entry of the sprite list shows, no other sprite does. -/
theorem shownSprite_zero {r : Registers} {x y : Nat} :
    m.shownSprite cart r x y = some 0 ↔
      r.mask.spritesAt x = true ∧
        ((m.sprite 0).y.toNat < y ∧ y ≤ (m.sprite 0).y.toNat + r.control.spriteHeight) ∧
          ((m.sprite 0).x.toNat ≤ x ∧ x ≤ (m.sprite 0).x.toNat + 7) ∧
            m.entryDot cart r.control 0 x y ≠ 0 := by
  have hsolid : m.entryOpaque cart r.control x y 0 = true ↔
      ((m.sprite 0).x.toNat ≤ x ∧ x ≤ (m.sprite 0).x.toNat + 7) ∧
        m.entryDot cart r.control 0 x y ≠ 0 := by
    simp only [entryOpaque, Bool.and_eq_true, decide_eq_true_eq, bne_iff_ne]
  have hreaches (line : Nat) : SpriteUnit.reaches m r.control line 0 = true ↔
      (m.sprite 0).y.toNat < line + 1 ∧
        line + 1 ≤ (m.sprite 0).y.toNat + r.control.spriteHeight := by
    simp only [SpriteUnit.reaches, SpriteUnit.inRange, Bool.and_eq_true, decide_eq_true_eq]
    omega
  unfold shownSprite
  rw [← hsolid]
  by_cases hshow : r.mask.spritesAt x = true
  · rw [if_pos hshow]
    cases y with
    | zero =>
      constructor
      · intro hnone
        cases hnone
      · rintro ⟨-, ⟨hlt, -⟩, -⟩
        exact absurd hlt (Nat.not_lt_zero _)
    | succ line =>
      rw [← hreaches line]
      constructor
      · intro hfind
        have hmem := List.mem_of_find?_eq_some hfind
        exact ⟨hshow, SpriteUnit.reaches_of_candidate hmem, List.find?_some hfind⟩
      · rintro ⟨-, hline, hcolumn⟩
        obtain ⟨l, hl⟩ : ∃ l, SpriteUnit.candidates m r.control (line + 1) = 0 :: l :=
          List.head?_eq_some_iff.mp (SpriteUnit.head?_candidates.mpr hline)
        rw [hl, List.find?_cons_of_pos hcolumn]
  · rw [if_neg hshow]
    exact iff_of_false (Option.some_ne_none _).symm fun h => hshow h.1

end Memory

namespace Scan

variable [PixelSink σ] {s : Scan σ}

/-- The first entry is hit where it shows before an opaque background, the first columns apart. -/
theorem before_hitsZero (hs : s.raster.beam = .start) {x y : Nat} (hx : x < width)
    (hy : y < height) :
    (s.before cart m x y).raster.moved.hitsZero (s.before cart m x y).regs = true ↔
      2 ≤ x ∧ m.shownSprite cart s.regs x y = some 0 ∧ (scrolledDot cart m s.regs x y).1 ≠ 0 := by
  have hdrawing := before_drawing cart m hs hx hy
  have htick : (s.before cart m x y).raster.moved.beam.tick = x + 1 :=
    congrArg (·.tick) (before_next cart m hs hx y)
  have hzero : (s.before cart m x y).raster.moved.sprites.slotZero = true ↔
      (SpriteUnit.candidates m s.regs.control y)[0]? = some 0 := by
    rw [← List.head?_eq_getElem?]
    exact hdrawing.zero
  have hfirst : ((s.before cart m x y).raster.moved.spriteDot (s.before cart m x y).regs).map
        Fin.val = some 0 ∧ (s.before cart m x y).raster.moved.sprites.slotZero = true ↔
      m.shownSprite cart s.regs x y = some 0 := by
    rw [hzero]
    cases hdot : (s.before cart m x y).raster.moved.spriteDot (s.before cart m x y).regs with
    | none =>
      rw [shownSprite_of_none hs hx hy hdot]
      exact iff_of_false (fun h => nomatch h.1) nofun
    | some k =>
      obtain ⟨i, hi, hshown⟩ := shownSprite_of_some hs hx hy hdot
      rw [hshown]
      constructor
      · rintro ⟨hk, hhead⟩
        rw [Option.some.inj hk, hhead] at hi
        exact hi.symm
      · intro h
        obtain rfl : i = 0 := Option.some.inj h
        have hhead : (SpriteUnit.candidates m s.regs.control y)[0]? = some 0 := by
          have hline := (Memory.shownSprite_zero.mp hshown).2.1
          obtain ⟨line, rfl⟩ := Nat.exists_eq_add_one_of_ne_zero (Nat.ne_of_gt
            (Nat.lt_of_le_of_lt (Nat.zero_le _) hline.1))
          have hreaches := SpriteUnit.reaches_of_candidate (List.mem_of_getElem? hi)
          rw [← List.head?_eq_getElem?]
          exact SpriteUnit.head?_candidates.mpr hreaches
        have hlt : k.val < (SpriteUnit.candidates m s.regs.control y).length :=
          (List.getElem?_eq_some_iff.mp hi).1
        have hk : k.val = 0 :=
          (List.getElem?_inj hlt (SpriteUnit.nodup_candidates m s.regs.control y)).mp
            (hi.trans hhead.symm)
        exact ⟨congrArg some hk, hhead⟩
  unfold Raster.hitsZero
  rw [htick, before_backgroundDot hs hx hy, Bool.and_eq_true, Bool.and_eq_true, Bool.and_eq_true,
    beq_iff_eq, bne_iff_ne, decide_eq_true_eq, hfirst]
  constructor
  · rintro ⟨⟨hshown, hsolid⟩, htwo⟩
    exact ⟨by omega, hshown, hsolid⟩
  · rintro ⟨htwo, hshown, hsolid⟩
    exact ⟨⟨hshown, hsolid⟩, by omega⟩

theorem runUntil_spriteOverflow (hs : s.raster.beam = .start) :
    (s.runUntil cart m (ticksPerLine * 241)).regs.status.spriteOverflow = true ↔
      ∃ line < height,
        9 ≤ ((List.finRange 64).filter (SpriteUnit.reaches m s.regs.control line)).length := by
  have hall : (List.finRange 64).take 64 = List.finRange 64 := List.take_of_length_le (by simp)
  rw [runUntil_flag spriteOverflow_pixelFlag hs]
  constructor
  · rintro ⟨x, hx, y, hy, hevent⟩
    have hnine := (exists_overflows cart m hs hy).mp ⟨x, hx, hevent⟩
    rw [SpriteUnit.showing, hall] at hnine
    exact ⟨y, hy, hnine⟩
  · rintro ⟨y, hy, hnine⟩
    obtain ⟨x, hx, hevent⟩ := (exists_overflows cart m hs hy).mpr (by
      rw [SpriteUnit.showing, hall]
      exact hnine)
    exact ⟨x, hx, y, hy, hevent⟩

theorem runUntil_spriteZeroHit (hs : s.raster.beam = .start) :
    (s.runUntil cart m (ticksPerLine * 241)).regs.status.spriteZeroHit = true ↔
      ∃ x y, (2 ≤ x ∧ x ≤ 255) ∧ (1 ≤ y ∧ y ≤ 239) ∧ s.regs.mask.spritesAt x = true ∧
        ((m.sprite 0).y.toNat < y ∧ y ≤ (m.sprite 0).y.toNat + s.regs.control.spriteHeight) ∧
          ((m.sprite 0).x.toNat ≤ x ∧ x ≤ (m.sprite 0).x.toNat + 7) ∧
            m.entryDot cart s.regs.control 0 x y ≠ 0 ∧ (scrolledDot cart m s.regs x y).1 ≠ 0 := by
  rw [runUntil_flag spriteZeroHit_pixelFlag hs]
  constructor
  · rintro ⟨x, hx, y, hy, hevent⟩
    obtain ⟨htwo, hshown, hsolid⟩ := (before_hitsZero hs hx hy).mp hevent
    obtain ⟨hshow, hline, hcolumn, hdot⟩ := Memory.shownSprite_zero.mp hshown
    have hx' : x < 256 := hx
    have hy' : y < 240 := hy
    exact ⟨x, y, ⟨htwo, by omega⟩, ⟨by omega, by omega⟩, hshow, hline, hcolumn, hdot, hsolid⟩
  · rintro ⟨x, y, ⟨htwo, hx⟩, ⟨-, hy⟩, hshow, hline, hcolumn, hdot, hsolid⟩
    have hx' : x < width := Nat.lt_succ_of_le hx
    have hy' : y < height := Nat.lt_succ_of_le hy
    exact ⟨x, hx', y, hy', (before_hitsZero hs hx' hy').mpr
      ⟨htwo, Memory.shownSprite_zero.mpr ⟨hshow, hline, hcolumn, hdot⟩, hsolid⟩⟩

/-- **The flags of the sprites say what became of them.**  A flag of an earlier picture has no part
in it. -/
theorem runUntil_spriteFlags (cart : κ) (m : Memory) (raster : Raster) (r : Registers) (sink : σ) :
    let status := (runUntil cart m (ticksPerLine * 241) ⟨raster.beginFrame, r, sink⟩).regs.status
    (status.spriteOverflow = true ↔
      ∃ line < height,
        9 ≤ ((List.finRange 64).filter (SpriteUnit.reaches m r.control line)).length) ∧
    (status.spriteZeroHit = true ↔
      ∃ x y, (2 ≤ x ∧ x ≤ 255) ∧ (1 ≤ y ∧ y ≤ 239) ∧ r.mask.spritesAt x = true ∧
        ((m.sprite 0).y.toNat < y ∧ y ≤ (m.sprite 0).y.toNat + r.control.spriteHeight) ∧
          ((m.sprite 0).x.toNat ≤ x ∧ x ≤ (m.sprite 0).x.toNat + 7) ∧
            m.entryDot cart r.control 0 x y ≠ 0 ∧ (scrolledDot cart m r x y).1 ≠ 0) :=
  ⟨runUntil_spriteOverflow rfl, runUntil_spriteZeroHit rfl⟩

end Scan

end Famicom.Picture
