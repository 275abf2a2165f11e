import Famicom.Proofs.Picture.Frame
import Famicom.Proofs.Picture.Plane
import Famicom.Proofs.Picture.Shifting

/-!
# The background along a row

The unit fetches tile after tile and draws from the two tiles before: while line `y` is drawn, tick
`t` has the tiles `t / 8` and `t / 8 + 1` of the line in the shift registers, moved up by `t % 8`,
and is at work on the next one.  At the end of a row it fetches the first two tiles of the next
line.  `Background.OnRow` says this of a tick, one tick preserves it (`OnRow.tick`, `OnRow.turn`),
and so every tick of a frame finds the tiles of its place (`Scan.after_onRow`).
-/

namespace Famicom.Picture

variable {κ σ : Type} [Cartridge κ] {cart : κ} {m : Memory} {r r' : Registers}

namespace Background

/-! ### Fetching a tile -/

def fetched (cart : κ) (m : Memory) (r : Registers) (p : ScrollAddress) : Background :=
  let r := { r with v := p }
  (((({} : Background).fetchTile cart m r).fetchPalette cart m r).fetchLow cart m r).fetchHigh
    cart m r

/-- The tile at position `p` is being fetched, `phase` ticks of eight ago begun. -/
structure Fetching (cart : κ) (m : Memory) (r : Registers) (p : ScrollAddress) (phase : Nat)
    (b : Background) : Prop where
  tile : 2 ≤ phase → b.tile = (fetched cart m r p).tile
  palette : 4 ≤ phase → b.palette = (fetched cart m r p).palette
  planeLow : 6 ≤ phase → b.planeLow = (fetched cart m r p).planeLow

/-- The shift registers hold two tiles, moved up by `n`. -/
structure Holds (first second : Background) (n : Nat) (b : Background) : Prop where
  patternLow : b.patternLow = pair first.planeLow second.planeLow n
  patternHigh : b.patternHigh = pair first.planeHigh second.planeHigh n
  paletteLow : b.paletteLow =
    pair (byteOfEight (bit first.palette 0)) (byteOfEight (bit second.palette 0)) n
  paletteHigh : b.paletteHigh =
    pair (byteOfEight (bit first.palette 1)) (byteOfEight (bit second.palette 1)) n

variable {b first second : Background} {p : ScrollAddress} {n t : Nat}

theorem Fetching.start : Fetching cart m r p 0 b where
  tile h := absurd h (by decide)
  palette h := absurd h (by decide)
  planeLow h := absurd h (by decide)

theorem Holds.shift (h : Holds first second n b) (hn : n < 15) :
    Holds first second (n + 1) b.shift where
  patternLow := by rw [← pair_shift _ _ hn, ← h.patternLow]; rfl
  patternHigh := by rw [← pair_shift _ _ hn, ← h.patternHigh]; rfl
  paletteLow := by rw [← pair_shift _ _ hn, ← h.paletteLow]; rfl
  paletteHigh := by rw [← pair_shift _ _ hn, ← h.paletteHigh]; rfl

theorem Holds.moveUp (h : Holds first second 8 b) : Holds second {} 0 b where
  patternLow := h.patternLow.trans (pair_eight _ _)
  patternHigh := h.patternHigh.trans (pair_eight _ _)
  paletteLow := h.paletteLow.trans (pair_eight _ _)
  paletteHigh := h.paletteHigh.trans (pair_eight _ _)

theorem Fetching.shift (h : Fetching cart m r p n b) : Fetching cart m r p n b.shift :=
  ⟨h.tile, h.palette, h.planeLow⟩

theorem Holds.fetch (h : Holds first second n b) (ht : t % 8 ≠ 0) :
    Holds first second n (b.fetch cart m r' t) := by
  unfold Background.fetch
  split
  · exact ⟨h.patternLow, h.patternHigh, h.paletteLow, h.paletteHigh⟩
  · exact ⟨h.patternLow, h.patternHigh, h.paletteLow, h.paletteHigh⟩
  · exact ⟨h.patternLow, h.patternHigh, h.paletteLow, h.paletteHigh⟩
  · exact absurd ‹_› ht
  · exact h

section Ticks

variable (hr : r.Follows r') (hv : r'.v = p)
include hr hv

theorem Fetching.fetch (h : Fetching cart m r p (t % 8) b) (ht : (t + 1) % 8 ≠ 0) :
    Fetching cart m r p ((t + 1) % 8) (b.fetch cart m r' (t + 1)) := by
  have hphase : (t + 1) % 8 = t % 8 + 1 := by omega
  unfold Background.fetch
  split
  · rename_i heq
    refine ⟨fun _ => ?_, fun hle => absurd hle (by omega), fun hle => absurd hle (by omega)⟩
    unfold fetchTile
    rw [hr.mask, hv]
    rfl
  · rename_i heq
    refine ⟨fun _ => h.tile (by omega), fun _ => ?_, fun hle => absurd hle (by omega)⟩
    unfold fetchPalette
    rw [hr.mask, hv]
    rfl
  · rename_i heq
    refine ⟨fun _ => h.tile (by omega), fun _ => h.palette (by omega), fun _ => ?_⟩
    unfold fetchLow planeAddress
    rw [hr.mask, hr.control, hv, h.tile (by omega)]
    rfl
  · exact absurd ‹_› ht
  · rename_i h2 h4 h6 _
    replace h2 : (t + 1) % 8 ≠ 2 := h2
    replace h4 : (t + 1) % 8 ≠ 4 := h4
    replace h6 : (t + 1) % 8 ≠ 6 := h6
    exact ⟨fun _ => h.tile (by omega), fun _ => h.palette (by omega),
      fun _ => h.planeLow (by omega)⟩

theorem Fetching.fetchHigh (h : Fetching cart m r p 7 b) :
    let b' := b.fetchHigh cart m r'
    b'.palette = (fetched cart m r p).palette ∧ b'.planeLow = (fetched cart m r p).planeLow ∧
      b'.planeHigh = (fetched cart m r p).planeHigh := by
  refine ⟨h.palette (by decide), h.planeLow (by decide), ?_⟩
  unfold Background.fetchHigh planeAddress
  rw [hr.mask, hr.control, hv, h.tile (by decide)]
  rfl

theorem Holds.load (h : Holds first second 0 b) (hf : Fetching cart m r p 7 b)
    (ht : (t + 1) % 8 = 0) (hfirst : t + 1 ≠ 328) :
    Holds first (fetched cart m r p) 0 (b.fetch cart m r' (t + 1)) := by
  obtain ⟨hpalette, hlow, hhigh⟩ := hf.fetchHigh hr hv
  unfold Background.fetch
  simp only [ht, if_neg hfirst]
  refine ⟨?_, ?_, ?_, ?_⟩
  · rw [← pair_load _ second.planeLow, ← hlow, ← h.patternLow]
    rfl
  · rw [← pair_load _ second.planeHigh, ← hhigh, ← h.patternHigh]
    rfl
  · rw [← pair_load _ (byteOfEight (bit second.palette 0)), ← hpalette, ← h.paletteLow,
      ← eightOf_eq (bit (b.fetchHigh cart m r').palette 0)]
    rfl
  · rw [← pair_load _ (byteOfEight (bit second.palette 1)), ← hpalette, ← h.paletteHigh,
      ← eightOf_eq (bit (b.fetchHigh cart m r').palette 1)]
    rfl

theorem Fetching.loadFirst (hf : Fetching cart m r p 7 b) :
    Holds (fetched cart m r p) {} 0 (b.fetch cart m r' 328) := by
  obtain ⟨hpalette, hlow, hhigh⟩ := hf.fetchHigh hr hv
  unfold Background.fetch
  refine ⟨?_, ?_, ?_, ?_⟩
  · rw [← hlow]
    exact pair_loadFirst _
  · rw [← hhigh]
    exact pair_loadFirst _
  · show eightOf (bit (b.fetchHigh cart m r').palette _) <<< 8 = pair _ 0 0
    rw [hpalette, eightOf_eq, pair_loadFirst]
  · show eightOf (bit (b.fetchHigh cart m r').palette _) <<< 8 = pair _ 0 0
    rw [hpalette, eightOf_eq, pair_loadFirst]

end Ticks

/-! ### A row -/

/-- While the line of the positions `p` is drawn. -/
structure Drawing (cart : κ) (m : Memory) (r : Registers) (p : Nat → ScrollAddress) (t : Nat)
    (b : Background) (v : ScrollAddress) : Prop where
  view : v = p (t / 8 + 2)
  fetching : Fetching cart m r (p (t / 8 + 2)) (t % 8) b
  holds : Holds (fetched cart m r (p (t / 8))) (fetched cart m r (p (t / 8 + 1))) (t % 8) b

/-- While its first two tiles are fetched. -/
structure Prefetching (cart : κ) (m : Memory) (r : Registers) (p : Nat → ScrollAddress) (t : Nat)
    (b : Background) (v : ScrollAddress) : Prop where
  view : v = p ((t - 320) / 8)
  fetching : Fetching cart m r (p ((t - 320) / 8)) (t % 8) b
  first : 328 ≤ t → t < 336 → Holds (fetched cart m r (p 0)) {} 0 b
  both : t = 336 → Holds (fetched cart m r (p 0)) (fetched cart m r (p 1)) 0 b

section Rows

variable {p : Nat → ScrollAddress} (hp : ∀ k, p (k + 1) = (p k).right)
  (hr : r.Follows r') (hrender : r.mask.rendering = true)
include hp hr hrender

theorem vFetched_of_phase {k : Nat} (hv : r'.v = p k) :
    r'.vFetched (t + 1) = if (t + 1) % 8 = 0 then p (k + 1) else p k := by
  unfold Registers.vFetched
  rw [hr.mask, hrender, hv, hp]
  simp only [and_true]

theorem Drawing.step (h : Drawing cart m r p t b r'.v) (hlt : t < 256) :
    Drawing cart m r p (t + 1) (b.shift.fetch cart m r' (t + 1)) (r'.vFetched (t + 1)) := by
  have hview := vFetched_of_phase (t := t) hp hr hrender h.view
  have hshift := h.holds.shift (Nat.lt_trans (Nat.mod_lt t (by decide : 8 > 0)) (by decide))
  by_cases ht : (t + 1) % 8 = 0
  · have hdiv : (t + 1) / 8 = t / 8 + 1 := by omega
    have hlast : t % 8 = 7 := by omega
    have hfetching := h.fetching.shift
    rw [hlast] at hshift hfetching
    rw [if_pos ht] at hview
    refine ⟨?_, ?_, ?_⟩
    · rw [hview, hdiv]
    · rw [ht]
      exact .start
    · rw [hdiv, ht]
      exact hshift.moveUp.load hr h.view hfetching ht (by omega)
  · have hdiv : (t + 1) / 8 = t / 8 := by omega
    have hphase : (t + 1) % 8 = t % 8 + 1 := by omega
    rw [if_neg ht] at hview
    refine ⟨?_, ?_, ?_⟩
    · rw [hview, hdiv]
    · rw [hdiv]
      exact h.fetching.shift.fetch hr h.view ht
    · rw [hdiv, hphase]
      exact hshift.fetch ht

theorem Prefetching.step (h : Prefetching cart m r p t b r'.v) (h₁ : 320 ≤ t) (h₂ : t < 336) :
    Prefetching cart m r p (t + 1) (b.fetch cart m r' (t + 1)) (r'.vFetched (t + 1)) := by
  have hview := vFetched_of_phase (t := t) hp hr hrender h.view
  by_cases ht : (t + 1) % 8 = 0
  · have hdiv : (t + 1 - 320) / 8 = (t - 320) / 8 + 1 := by omega
    have hlast : t % 8 = 7 := by omega
    have hfetching := h.fetching
    rw [hlast] at hfetching
    rw [if_pos ht] at hview
    refine ⟨?_, ?_, ?_, ?_⟩
    · rw [hview, hdiv]
    · rw [ht]
      exact .start
    · intro hle hlt
      obtain rfl : t = 327 := by omega
      exact hfetching.loadFirst hr h.view
    · intro heq
      obtain rfl : t = 335 := by omega
      exact (h.first (by decide) (by decide)).load hr h.view hfetching ht (by decide)
  · have hdiv : (t + 1 - 320) / 8 = (t - 320) / 8 := by omega
    rw [if_neg ht] at hview
    refine ⟨?_, ?_, ?_, ?_⟩
    · rw [hview, hdiv]
    · rw [hdiv]
      exact h.fetching.fetch hr h.view ht
    · intro hle hlt
      exact (h.first (by omega) (by omega)).fetch ht
    · intro heq
      omega

end Rows

theorem Prefetching.ready {p : Nat → ScrollAddress} {v : ScrollAddress}
    (h : Prefetching cart m r p 336 b v) :
    Drawing cart m r p 0 b v :=
  ⟨h.view, .start, h.both rfl⟩

/-- The background and the position in view after tick `t` of a row. -/
structure OnRow (cart : κ) (m : Memory) (r : Registers) (row t : Nat) (b : Background)
    (v : ScrollAddress) : Prop where
  drawing : ∀ y, row = y + 1 → t ≤ 256 → Drawing cart m r (r.t.walk y) t b v
  turned : 0 < row → 257 ≤ t → t ≤ 320 → v = r.t.walk row 0
  prefetching : 320 ≤ t → t ≤ 336 → Prefetching cart m r (r.t.walk row) t b v
  ready : 336 ≤ t → Drawing cart m r (r.t.walk row) 0 b v

/-! What the ticks do to the position in view that neither draw nor fetch. -/

section Between

variable {row : Nat} (hrender : r.mask.rendering = true)
include hrender

theorem vShare_turn {y : Nat} (hy : y < 240) (h₁ : 257 ≤ t) (h₂ : t ≤ 320) :
    r.vShare (.place (y + 1) t) = if t = 257 then r.v.down.copyHorizontal r.t else r.v := by
  have hdraws : ¬ (Beam.place (y + 1) t).Draws := by
    rw [Beam.draws_place hy]
    omega
  have hprefetches : ¬ (Beam.place (y + 1) t).Prefetches := by
    rw [Beam.prefetches_place hy]
    omega
  have hline : (Beam.place (y + 1) t).line = y := Beam.place_line (by omega)
  have hpreparing : ¬ (y = Beam.preparing ∧ t = 320) := by
    simp only [Beam.preparing]
    omega
  rw [Registers.vShare, if_neg (not_or.mpr ⟨hdraws, hprefetches⟩), if_pos hrender, hline,
    show (Beam.place (y + 1) t).tick = t from rfl, if_neg hpreparing]
  simp only [hy, true_and]

theorem vShare_begin : r.vShare (.place 0 320) = r.t := by
  have hprefetches : ¬ (Beam.place 0 320).Prefetches := by
    rw [Beam.prefetches_place (Nat.zero_le _)]
    omega
  rw [Registers.vShare, if_neg (not_or.mpr ⟨Beam.not_draws_preparing _, hprefetches⟩),
    if_pos hrender]
  rfl

theorem vShare_rest (hrow : row ≤ 240) (h : t = 0 ∨ 337 ≤ t) :
    r.vShare (.place row t) = r.v := by
  have hdraws : ¬ (Beam.place row t).Draws := fun ⟨_, h₁, h₂⟩ => by
    simp only [Beam.place] at h₁ h₂
    omega
  have hprefetches : ¬ (Beam.place row t).Prefetches := by
    rw [Beam.prefetches_place hrow]
    omega
  have hturn : ¬ ((Beam.place row t).line < 240 ∧ (Beam.place row t).tick = 257) :=
    fun h => by
      have he := h.2
      simp only [Beam.place] at he
      omega
  have hbegin : ¬ ((Beam.place row t).line = Beam.preparing ∧ (Beam.place row t).tick = 320) :=
    fun h => by
      have he := h.2
      simp only [Beam.place] at he
      omega
  rw [Registers.vShare, if_neg (not_or.mpr ⟨hdraws, hprefetches⟩), if_pos hrender, if_neg hturn,
    if_neg hbegin]

end Between

theorem share_rest {row : Nat} (hrow : row ≤ 240) (h : t = 0 ∨ 337 ≤ t) :
    b.share cart m r (.place row t) = b := by
  have hdraws : ¬ (Beam.place row t).Draws := fun ⟨_, h₁, h₂⟩ => by
    simp only [Beam.place] at h₁ h₂
    omega
  have hprefetches : ¬ (Beam.place row t).Prefetches := by
    rw [Beam.prefetches_place hrow]
    omega
  rw [Background.share, if_neg hdraws, if_neg hprefetches]

section Rows

variable {row : Nat} (hr : r.Follows r') (hrender : r.mask.rendering = true) (hrow : row ≤ 240)
include hr hrender hrow

theorem OnRow.tick (ht : t < 340) (h : OnRow cart m r row t b r'.v) :
    OnRow cart m r row (t + 1) (b.share cart m r' (.place row (t + 1)))
      (r'.vShare (.place row (t + 1))) := by
  have hrender' : r'.mask.rendering = true := hr.mask ▸ hrender
  have hright (y k : Nat) : r.t.walk y (k + 1) = (r.t.walk y k).right := r.t.walk_succ y k
  have hturned : 0 < row → 257 ≤ t + 1 → t + 1 ≤ 320 →
      r'.vShare (.place row (t + 1)) = r.t.walk row 0 := by
    intro hpos h₁ h₂
    obtain ⟨y, rfl⟩ := Nat.exists_eq_add_one_of_ne_zero (Nat.ne_of_gt hpos)
    rw [vShare_turn hrender' hrow h₁ h₂, hr.t]
    split
    · obtain rfl : t = 256 := by omega
      rw [(h.drawing y rfl (Nat.le_refl _)).view]
      exact r.t.walk_turn y _
    · exact h.turned hpos (by omega) (by omega)
  have hprefetching : 320 ≤ t + 1 → t + 1 ≤ 336 →
      Prefetching cart m r (r.t.walk row) (t + 1) (b.share cart m r' (.place row (t + 1)))
        (r'.vShare (.place row (t + 1))) := by
    intro h₁ h₂
    rcases Nat.lt_or_ge t 320 with hlt | hge
    · obtain rfl : t = 319 := by omega
      refine ⟨?_, .start, fun hle => absurd hle (by decide), fun heq => absurd heq (by decide)⟩
      rcases Nat.eq_zero_or_pos row with rfl | hpos
      · rw [vShare_begin hrender', hr.t]
        rfl
      · exact hturned hpos (by decide) (by decide)
    · have hdraws : ¬ (Beam.place row (t + 1)).Draws := fun hd =>
        absurd hd.2.2 (Nat.not_le.mpr
          (Nat.lt_of_lt_of_le (by decide : 256 < 321) (Nat.succ_le_succ hge)))
      have hprefetches : (Beam.place row (t + 1)).Prefetches :=
        (Beam.prefetches_place hrow).mpr ⟨Nat.succ_le_succ hge, h₂⟩
      rw [Background.share, if_neg hdraws, if_pos hprefetches, Registers.vShare,
        if_pos (.inr hprefetches)]
      exact (h.prefetching hge (Nat.le_of_succ_le h₂)).step (hright row) hr hrender hge h₂
  refine ⟨?_, hturned, hprefetching, ?_⟩
  · rintro y rfl ht'
    have hdraws : (Beam.place (y + 1) (t + 1)).Draws :=
      (Beam.draws_place hrow).mpr ⟨Nat.succ_pos t, ht'⟩
    rw [Background.share, if_pos hdraws, Registers.vShare, if_pos (.inl hdraws)]
    exact (h.drawing y rfl (Nat.le_of_succ_le ht')).step (hright y) hr hrender ht'
  · intro h₁
    rcases Nat.eq_or_lt_of_le h₁ with heq | hlt
    · have hlast := hprefetching (by omega) (Nat.le_of_eq heq.symm)
      rw [← heq] at hlast ⊢
      exact hlast.ready
    · rw [share_rest hrow (.inr hlt), vShare_rest hrender' hrow (.inr hlt)]
      exact h.ready (Nat.le_of_lt_succ hlt)

omit hrow in
theorem OnRow.turn (hrow : row < 240) (h : OnRow cart m r row 340 b r'.v) :
    OnRow cart m r (row + 1) 0 (b.share cart m r' (.place (row + 1) 0))
      (r'.vShare (.place (row + 1) 0)) := by
  have hrender' : r'.mask.rendering = true := hr.mask ▸ hrender
  rw [share_rest hrow (.inl rfl), vShare_rest hrender' hrow (.inl rfl)]
  refine ⟨?_, fun _ hle => absurd hle (by decide), fun hle => absurd hle (by decide),
    fun hle => absurd hle (by decide)⟩
  intro y hy _
  obtain rfl : row = y := Nat.succ_inj.mp hy
  exact h.ready (by decide)

end Rows

end Background

namespace Scan

variable [PixelSink σ] {s : Scan σ}

/-- **Every tick of a frame finds the tiles of its place.** -/
theorem after_onRow (cart : κ) (m : Memory) (hs : s.raster.beam = .start)
    (hrender : s.regs.mask.rendering = true) (row : Nat) {t : Nat} (hrow : row ≤ 240)
    (ht : t ≤ 340) :
    Background.OnRow cart m s.regs row t (after cart m s row t).raster.background
      (after cart m s row t).regs.v := by
  refine rows_induction
    (P := fun row t => Background.OnRow cart m s.regs row t (after cart m s row t).raster.background
      (after cart m s row t).regs.v) ?_ ?_ ?_ hrow ht
  · exact ⟨fun y h => absurd h (Nat.succ_ne_zero y).symm, fun h => absurd h (by decide),
      fun h => absurd h (by decide), fun h => absurd h (by decide)⟩
  · intro row t hrow ht ih
    have hnext := after_next cart m hs row ht
    have hline := hnext ▸ Beam.place_line_le row (t + 1)
    rw [after_tick, step_background hline, step_v hline, hnext]
    exact ih.tick (after_follows cart m hs row t) hrender hrow ht
  · intro row hrow ih
    have hnext := after_next_last cart m hs row
    have hline := hnext ▸ Beam.place_line_le (row + 1) 0
    rw [after_turn, step_background hline, step_v hline, hnext]
    exact ih.turn (after_follows cart m hs row 340) hrender hrow

end Scan

end Famicom.Picture
