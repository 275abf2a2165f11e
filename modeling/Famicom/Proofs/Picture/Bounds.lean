import Famicom.Proofs.Picture.Alike
import Famicom.Proofs.Picture.Scrolled
import Famicom.Proofs.Picture.SpritePixels

/-!
# The bounds that the picture unit keeps

The unit holds numbers that are smaller than the words they are kept in: addresses of fifteen bits,
a column within a tile, counts of at most eight sprites, a row of each sprite that lies within it.
Every tick and every access to a register keeps them so (`Scan.Bounded.step`,
`Registers.Bounded.afterRead`, `Registers.Bounded.writeRegister`), and they are why the addresses of
the bit planes stay below the nametables (`Background.planeAddress_lt`,
`SpriteUnit.Bounded.planeAddress_lt`).

A sprite that is found has its row within its height from the beginning.  But tick 64 forgets the
sprites without their count, and what it leaves behind has no height.  So the invariant has to say
as well that none are counted up to then (`Raster.Bounded.unfound`).  The first tick of a visible
line sees to that, and where a frame is begun in the middle of a line, the line that prepares the
picture does.
-/

namespace Famicom.Picture

variable {κ σ : Type} [Cartridge κ] {cart : κ} {m : Memory}

/-! ### Addresses -/

namespace ScrollAddress

theorem spare_ofNat {n : Nat} (h : n < 0x8000) : (ofNat n).spare = false := by
  show (n / 32768 % 2 == 1) = false
  rw [Nat.div_eq_of_lt h]
  rfl

theorem toNat_lt_iff (v : ScrollAddress) : v.toNat < 0x8000 ↔ v.spare = false := by
  have hX := v.coarseX.isLt
  have hY := v.coarseY.isLt
  have hfine := v.fineY.isLt
  have htableX := v.tableX.toNat_le
  have htableY := v.tableY.toNat_le
  unfold toNat
  cases v.spare
  · simp only [Bool.toNat_false, iff_true]
    omega
  · simp only [Bool.toNat_true, Bool.true_eq_false, iff_false]
    omega

theorem attributeShift_lt (v : ScrollAddress) : v.attributeShift < 8 := by
  unfold attributeShift
  rw [UInt8.lt_iff_toNat_lt, UInt8.toNat_ofNat_of_lt' (by show _ < 256; omega)]
  show _ < 8
  omega

@[simp] theorem spare_right (v : ScrollAddress) : v.right.spare = v.spare := by
  unfold right
  split <;> rfl

@[simp] theorem spare_down (v : ScrollAddress) : v.down.spare = v.spare := by
  unfold down
  dsimp only
  split_ifs <;> rfl

@[simp] theorem spare_copyHorizontal (v t : ScrollAddress) :
    (v.copyHorizontal t).spare = v.spare := rfl

end ScrollAddress

/-! ### The registers -/

/-- Both addresses have fifteen bits, and the picture starts at a column of a tile. -/
structure Registers.Bounded (r : Registers) : Prop where
  v : r.v.spare = false
  t : r.t.spare = false
  fineX : r.fineX ≤ 7

namespace Registers.Bounded

variable {r : Registers}

theorem initial : ({} : Registers).Bounded := ⟨rfl, rfl, by decide⟩

theorem advance (h : r.Bounded) : r.advance.Bounded :=
  ⟨ScrollAddress.spare_ofNat (Nat.mod_lt _ (by decide)), h.t, h.fineX⟩

theorem writeScroll (h : r.Bounded) (byte : UInt8) : (r.writeScroll byte).Bounded := by
  unfold Registers.writeScroll
  dsimp only
  split
  · exact ⟨h.v, h.t, h.fineX⟩
  · have hfine : byte.toNat % 8 < 8 := Nat.mod_lt _ (by decide)
    refine ⟨h.v, h.t, UInt8.le_iff_toNat_le.mpr ?_⟩
    rw [UInt8.toNat_ofNat_of_lt' (Nat.lt_trans hfine (by decide))]
    exact Nat.le_of_lt_succ hfine

/-- The high byte of the address comes with the upper bits cut off, and the low one leaves them. -/
theorem writeAddress (h : r.Bounded) (byte : UInt8) : (r.writeAddress byte).Bounded := by
  have hbyte := byte.toNat_lt
  unfold Registers.writeAddress
  split
  · have ht := ScrollAddress.spare_ofNat
      (n := r.t.toNat / 256 % 128 * 256 + byte.toNat) (by omega)
    exact ⟨ht, ht, h.fineX⟩
  · exact ⟨h.v, ScrollAddress.spare_ofNat (by omega), h.fineX⟩

theorem afterRead {u : Video} (h : u.regs.Bounded) (name : RegisterName) :
    (u.afterRead cart name).regs.Bounded := by
  cases name with
  | data => exact ⟨h.advance.v, h.t, h.fineX⟩
  | status => exact ⟨h.v, h.t, h.fineX⟩
  | _ => exact h

theorem writeRegister {u : Video} (h : u.regs.Bounded) (name : RegisterName) (byte : UInt8) :
    (u.writeRegister name byte).regs.Bounded := by
  have hnoted : ({ u.regs with lastWritten := byte } : Registers).Bounded := ⟨h.v, h.t, h.fineX⟩
  cases name with
  | scroll => exact hnoted.writeScroll byte
  | address => exact hnoted.writeAddress byte
  | data => exact hnoted.advance
  | _ => exact ⟨h.v, h.t, h.fineX⟩

/-- The position in view moves along its digits, or is taken over from the other address. -/
theorem vShare (h : r.Bounded) (b : Beam) : (r.vShare b).spare = false := by
  unfold Registers.vShare Registers.vFetched
  split_ifs <;> simp [h.v, h.t]

end Registers.Bounded

/-! ### The background -/

theorem Background.planeAddress_lt (b : Background) (r : Registers) :
    (b.planeAddress r).toNat + 8 < 0x2000 := by
  have htile : b.tile.toNat < 256 := b.tile.toNat_lt
  have hfine := r.v.fineY.isLt
  rw [b.planeAddress_toNat]
  split <;> omega

/-! ### The sprites -/

/-- The sprite is eight or sixteen lines high, and the row that shows is one of them. -/
structure FoundSprite.Bounded (s : FoundSprite) : Prop where
  height : s.height = 8 ∨ s.height = 16
  row : s.row < s.height

/-- There are at most eight sprites of either kind.  Those found have their rows within them, the
slots have sprite palettes, and so has the sprite taken up its row within it. -/
structure SpriteUnit.Bounded (u : SpriteUnit) : Prop where
  slotCount : u.slotCount ≤ 8
  foundCount : u.foundCount ≤ 8
  found : ∀ k : Fin 8, k.val < u.foundCount → (u.found[k]).Bounded
  palette : ∀ k : Fin 8, (u.slot k).palette ≤ 3
  fetchHeight : u.fetchHeight = 8 ∨ u.fetchHeight = 16
  fetchRow : u.fetchRow < u.fetchHeight

theorem FoundSprite.Bounded.one_le {s : FoundSprite} (h : s.Bounded) : 1 ≤ s.height := by
  rcases h.height with hheight | hheight <;> rw [hheight] <;> decide

theorem FoundSprite.Bounded.row_le {s : FoundSprite} (h : s.Bounded) : s.row ≤ s.height - 1 := by
  have hrow := UInt8.lt_iff_toNat_lt.mp h.row
  rw [UInt8.le_iff_toNat_le, UInt8.toNat_sub_of_le _ _ h.one_le]
  exact Nat.le_sub_one_of_lt hrow

/-- Upside down or not, the line of the tile is one of its lines. -/
theorem FoundSprite.Bounded.tileRow_lt {s : FoundSprite} (h : s.Bounded) :
    SpriteUnit.tileRow s < s.height := by
  unfold SpriteUnit.tileRow
  split
  · have hone := UInt8.le_iff_toNat_le.mp h.one_le
    rw [UInt8.lt_iff_toNat_lt, UInt8.toNat_sub_of_le _ _ h.row_le,
      UInt8.toNat_sub_of_le _ _ h.one_le]
    show s.height.toNat - 1 - s.row.toNat < _
    replace hone : 1 ≤ s.height.toNat := hone
    omega
  · exact h.row

namespace SpriteUnit

theorem note_bounded {c : Control} {line : Nat} {i : Fin 64} (h : reaches m c line i = true) :
    (note m c line i).Bounded := by
  have hrow := row_lt h
  have hheight := spriteHeight_le c
  have hcases : c.spriteHeight = 8 ∨ c.spriteHeight = 16 := by
    unfold Control.spriteHeight
    split <;> simp
  constructor
  · show UInt8.ofNat c.spriteHeight = 8 ∨ UInt8.ofNat c.spriteHeight = 16
    rcases hcases with h8 | h16
    · exact .inl (by rw [h8]; rfl)
    · exact .inr (by rw [h16]; rfl)
  · show UInt8.ofNat (line - (m.sprite i).y.toNat) < UInt8.ofNat c.spriteHeight
    have hlt : line - (m.sprite i).y.toNat < 256 := by omega
    rw [UInt8.lt_iff_toNat_lt, UInt8.toNat_ofNat_of_lt' hlt,
      UInt8.toNat_ofNat_of_lt' (Nat.lt_of_le_of_lt hheight (by decide))]
    exact hrow

theorem palette_advance (u : SpriteUnit) (k : Fin 8) :
    (u.advance.slot k).palette = (u.slot k).palette := by
  have hslot (s : SpriteSlot) : s.advance.palette = s.palette := by
    unfold SpriteSlot.advance
    split <;> rfl
  unfold advance slot
  split
  · rfl
  · simp only [Fin.getElem_fin, Vector.getElem_mapFinIdx]
    split
    · exact hslot _
    · rfl

theorem palette_fetch {r : Registers} {u : SpriteUnit} {j k : Fin 8} {step : Nat}
    (h : (u.slot k).palette ≤ 3) : ((u.fetch cart m r j step).slot k).palette ≤ 3 := by
  have hcurrent : u.current.palette ≤ 3 := by
    rw [UInt8.le_iff_toNat_le, SpriteEntry.palette, UInt8.toNat_and]
    exact Nat.and_le_right
  rw [slot_fetch]
  split
  · unfold fillStep
    split <;> first | exact h | exact hcurrent
  · exact h

namespace Bounded

variable {u : SpriteUnit} {r : Registers} {c : Control} {b : Beam}

theorem initial : ({} : SpriteUnit).Bounded where
  slotCount := Nat.zero_le _
  foundCount := Nat.zero_le _
  found _ hk := absurd hk (Nat.not_lt_zero _)
  palette := by decide
  fetchHeight := .inl rfl
  fetchRow := by decide

theorem startLine (h : u.Bounded) : u.startLine.Bounded where
  slotCount := h.foundCount
  foundCount := Nat.zero_le _
  found _ hk := absurd hk (Nat.not_lt_zero _)
  palette := h.palette
  fetchHeight := h.fetchHeight
  fetchRow := h.fetchRow

theorem clearCounts (h : u.Bounded) : u.clearCounts.Bounded where
  slotCount := Nat.zero_le _
  foundCount := Nat.zero_le _
  found _ hk := absurd hk (Nat.not_lt_zero _)
  palette := h.palette
  fetchHeight := h.fetchHeight
  fetchRow := h.fetchRow

/-- Sprites may be forgotten where none are counted. -/
theorem clearFound (h : u.Bounded) (hnone : u.foundCount = 0) : u.clearFound.Bounded where
  slotCount := h.slotCount
  foundCount := h.foundCount
  found _ hk := absurd (hnone ▸ hk) (Nat.not_lt_zero _)
  palette := h.palette
  fetchHeight := h.fetchHeight
  fetchRow := h.fetchRow

theorem add (h : u.Bounded) (i : Fin 64) {s : FoundSprite} (hs : s.Bounded) :
    (u.add i s).Bounded := by
  unfold SpriteUnit.add
  split
  · rename_i hroom
    refine ⟨h.slotCount, hroom, fun k hk => ?_, h.palette, h.fetchHeight, h.fetchRow⟩
    -- the sprite added is the last one counted, and those before it are as they were
    show ((u.found.set u.foundCount s)[k.val]).Bounded
    rw [Vector.getElem_set]
    split
    · exact hs
    · rename_i hne
      exact h.found k (by change k.val < u.foundCount + 1 at hk; omega)
  · exact h

/-- Finding adds what reaches the line, and forgets only where none are counted. -/
theorem find (h : u.Bounded) (hnone : b.tick = 64 → u.foundCount = 0) :
    (u.find m c b).Bounded := by
  unfold SpriteUnit.find
  split
  · rename_i htick
    exact h.clearFound (hnone htick)
  · split
    · rename_i i hcaught
      exact h.add i (note_bounded (Option.filter_eq_some_iff.mp hcaught).2)
    · exact h

theorem advance (h : u.Bounded) : u.advance.Bounded := by
  have hpalette (k : Fin 8) : (u.advance.slot k).palette ≤ 3 :=
    (u.palette_advance k).symm ▸ h.palette k
  rw [advance_eq] at hpalette ⊢
  exact ⟨h.slotCount, h.foundCount, h.found, hpalette, h.fetchHeight, h.fetchRow⟩

theorem takeUp (h : u.Bounded) {j : Fin 8} (hj : j.val < u.foundCount) : (u.takeUp j).Bounded := by
  obtain ⟨hheight, -⟩ := h.found j hj
  have hrow := UInt8.lt_iff_toNat_lt.mp (h.found j hj).tileRow_lt
  refine ⟨h.slotCount, h.foundCount, h.found, h.palette, ?_, ?_⟩
  · show (u.found[j]).height.toUInt16 = 8 ∨ (u.found[j]).height.toUInt16 = 16
    exact hheight.imp (fun h8 => by rw [h8]; rfl) fun h16 => by rw [h16]; rfl
  · show (tileRow u.found[j]).toUInt16 < (u.found[j]).height.toUInt16
    rw [UInt16.lt_iff_toNat_lt, UInt8.toNat_toUInt16, UInt8.toNat_toUInt16]
    exact hrow

theorem fetch (h : u.Bounded) (j : Fin 8) (step : Nat) : (u.fetch cart m r j step).Bounded := by
  have hpalette (k : Fin 8) : ((u.fetch cart m r j step).slot k).palette ≤ 3 :=
    palette_fetch (h.palette k)
  by_cases hj : j.val < u.foundCount
  · rw [fetch_eq u hj] at hpalette ⊢
    by_cases hstep : step = 1
    · rw [if_pos hstep]
      exact h.takeUp hj
    · rw [if_neg hstep] at hpalette ⊢
      exact ⟨h.slotCount, h.foundCount, h.found, hpalette, h.fetchHeight, h.fetchRow⟩
  · unfold SpriteUnit.fetch
    rwa [if_neg hj]

theorem load (h : u.Bounded) (tick : Nat) : (u.load cart m r tick).Bounded := by
  unfold SpriteUnit.load
  split
  · exact h.fetch _ _
  · exact h

/-- Every tick keeps the sprites in bounds, if none are counted by the time they are forgotten. -/
theorem share (h : u.Bounded) (hnone : b.line < 240 → b.tick = 64 → u.foundCount = 0) :
    (u.share cart m r b).Bounded := by
  unfold SpriteUnit.share
  split_ifs with hdraws
  · exact (h.find (hnone hdraws.1)).advance
  · exact h.startLine
  · exact h.load _
  · exact h
  · exact h.clearCounts
  · exact h

end Bounded

/-- Up to tick 64 of a visible line no sprites are counted. -/
theorem share_foundCount {r : Registers} {b : Beam} {u : SpriteUnit} (hline : b.line < 240)
    (htick : b.tick < 65) (h : b.tick ≠ 0 → u.foundCount = 0) :
    (u.share cart m r b).foundCount = 0 := by
  by_cases hzero : b.tick = 0
  · rw [share_starts hline hzero]
    rfl
  · have hdraws : b.Draws := ⟨hline, Nat.one_le_iff_ne_zero.mpr hzero, by omega⟩
    have hconsidered : considered b.tick = none := dif_neg (by omega)
    rw [share_draws hdraws, advance_eq]
    unfold find caught
    rw [hconsidered]
    split <;> exact h hzero

theorem Bounded.fetchRow_eq {u : SpriteUnit} (h : u.Bounded) :
    ∃ row : UInt8, u.fetchRow = row.toUInt16 := by
  have hrow := UInt16.lt_iff_toNat_lt.mp h.fetchRow
  have hheight : u.fetchHeight.toNat ≤ 16 := by
    rcases h.fetchHeight with h8 | h16
    · rw [h8]
      decide
    · rw [h16]
      decide
  refine ⟨u.fetchRow.toUInt8, UInt16.toNat_inj.mp ?_⟩
  rw [UInt8.toNat_toUInt16, UInt16.toNat_toUInt8]
  omega

theorem Bounded.planeAddress_lt {u : SpriteUnit} (h : u.Bounded) (c : Control) :
    (u.planeAddress c).toNat + 8 < 0x2000 := by
  have htile : u.current.tile.toNat < 256 := u.current.tile.toNat_lt
  obtain ⟨row, hrow⟩ := h.fetchRow_eq
  have hlt := UInt16.lt_iff_toNat_lt.mp h.fetchRow
  rw [hrow, UInt8.toNat_toUInt16] at hlt
  unfold planeAddress
  rw [hrow]
  -- either way the last tile ends where the nametables begin
  by_cases htall : u.fetchHeight = 16
  · rw [htall] at hlt
    rw [if_pos htall, tallAddress u.current.tile hlt]
    replace hlt : row.toNat < 16 := hlt
    omega
  · rw [h.fetchHeight.resolve_right htall] at hlt
    rw [if_neg htall, smallAddress c u.current.tile hlt]
    replace hlt : row.toNat < 8 := hlt
    split <;> omega

end SpriteUnit

/-! ### The drawing -/

/-- The sprites are in bounds and the beam is on a line of the frame; on a visible line no sprites
are counted until they have been forgotten. -/
structure Raster.Bounded (q : Raster) : Prop where
  sprites : q.sprites.Bounded
  line : q.beam.line ≤ Beam.preparing
  unfound : q.beam.line < 240 → q.beam.tick < 65 → q.sprites.foundCount = 0

/-- Everything that a tick can change is in bounds. -/
structure Scan.Bounded (s : Scan σ) : Prop where
  raster : s.raster.Bounded
  regs : s.regs.Bounded

theorem Raster.Bounded.initial : ({} : Raster).Bounded :=
  ⟨.initial, by decide, fun _ _ => rfl⟩

theorem Raster.Bounded.beginFrame {q : Raster} (h : q.Bounded) : q.beginFrame.Bounded where
  sprites := h.sprites
  line := Nat.le_refl _
  unfound hline := absurd (show 261 < 240 from hline) (by decide)

/-- Within a visible line the sprites that are not yet counted stay uncounted. -/
theorem Raster.Bounded.unfound_next {q : Raster} (h : q.Bounded) (hline : q.beam.next.line < 240)
    (htick : q.beam.next.tick < 65) (hne : q.beam.next.tick ≠ 0) : q.sprites.foundCount = 0 := by
  obtain ⟨hsame, hnext⟩ := Beam.next_tick hne
  exact h.unfound (hsame ▸ hline) (by omega)

namespace Scan.Bounded

variable [PixelSink σ] {s : Scan σ}

/-- **A tick keeps the drawing in bounds.** -/
theorem step (h : s.Bounded) : (s.step cart m).Bounded := by
  have hline := Beam.next_line_le h.raster.line
  have hsprites : (s.step cart m).raster.sprites =
      s.raster.sprites.share cart m s.regs s.raster.beam.next := Scan.step_sprites hline
  have hbeam : (s.step cart m).raster.beam = s.raster.beam.next := Scan.step_beam s
  refine ⟨⟨?_, ?_, ?_⟩, ?_⟩
  · rw [hsprites]
    exact h.raster.sprites.share fun hvisible htick =>
      h.raster.unfound_next hvisible (by omega) (by omega)
  · rwa [hbeam]
  · rw [hbeam, hsprites]
    intro hvisible htick
    exact SpriteUnit.share_foundCount hvisible htick (h.raster.unfound_next hvisible htick)
  · rw [Scan.step_shares hline]
    exact ⟨h.regs.vShare _, h.regs.t, h.regs.fineX⟩

end Scan.Bounded

end Famicom.Picture
