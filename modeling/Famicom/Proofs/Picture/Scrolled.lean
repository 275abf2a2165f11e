import Famicom.Cartridge.Board
import Famicom.Proofs.Picture.Background

/-!
# The background of a picture

Every tick finds the tiles of its place in the shift registers, so the background of a pixel is a
function of memory and of the registers at the beginning of the frame (`before_backgroundDot`).
This function reads the plane of the nametables, scrolled (`scrolledDot_eq`), and a picture without
sprites is nothing else (`runUntil_background`).
-/

namespace Famicom.Picture

variable {κ σ : Type} [Cartridge κ] {cart : κ} {m : Memory} {r : Registers}

/-! ### The pixels -/

namespace Background

/-- The shift registers with two tiles side by side, moved up by `n`. -/
def joined (first second : Background) (n : Nat) : Background where
  patternLow := pair first.planeLow second.planeLow n
  patternHigh := pair first.planeHigh second.planeHigh n
  paletteLow := pair (byteOfEight (bit first.palette 0)) (byteOfEight (bit second.palette 0)) n
  paletteHigh := pair (byteOfEight (bit first.palette 1)) (byteOfEight (bit second.palette 1)) n

/-- The value of pixel `i` of a line of a tile that has been fetched, and its palette. -/
def dot (b : Background) (i : Nat) : UInt8 × UInt8 :=
  (atBit (b.planeHigh.toNat.testBit (7 - i)) 1 ||| atBit (b.planeLow.toNat.testBit (7 - i)) 0,
    atBit (bit b.palette 1) 1 ||| atBit (bit b.palette 0) 0)

variable {b first second : Background} {n : Nat} {f : UInt8}

theorem Holds.pixel (h : Holds first second n b) : b.pixel f = (joined first second n).pixel f := by
  rw [Background.pixel, h.patternLow, h.patternHigh]
  rfl

theorem Holds.pixelPalette (h : Holds first second n b) :
    b.pixelPalette f = (joined first second n).pixelPalette f := by
  rw [Background.pixelPalette, h.paletteLow, h.paletteHigh]
  rfl

theorem dot_joined (hf : f.toNat ≤ 7) (hn : n ≤ 7) :
    ((joined first second n).pixel f, (joined first second n).pixelPalette f) =
      dot (if f.toNat + n < 8 then first else second) ((f.toNat + n) % 8) := by
  have hbits (v w : Bool) : atBit v 0 <<< 1 ||| atBit w 0 = atBit v 1 ||| atBit w 0 := by
    cases v <;> cases w <;> rfl
  unfold pixel pixelPalette joined dot
  simp only [tap_pair _ _ hf hn, hbits]
  by_cases hlt : f.toNat + n < 8
  · have hmod : (f.toNat + n) % 8 = f.toNat + n := Nat.mod_eq_of_lt hlt
    simp only [if_pos hlt, hmod, testBit_byteOfEight _ (Nat.lt_succ_of_le (Nat.sub_le 7 _))]
  · have hmod : (f.toNat + n) % 8 = f.toNat + n - 8 := by omega
    simp only [if_neg hlt, hmod, testBit_byteOfEight _ (Nat.lt_succ_of_le (Nat.sub_le 7 _))]

theorem planeAddress_toNat (b : Background) (r : Registers) :
    (b.planeAddress r).toNat =
      (if r.control.backgroundTable then 0x1000 else 0) + 16 * b.tile.toNat + r.v.fineY := by
  have htile : b.tile.toNat < 256 := b.tile.toNat_lt
  have hfine := r.v.fineY.isLt
  have hbase : r.control.backgroundBase.toNat =
      if r.control.backgroundTable then 0x1000 else 0 := by
    unfold Control.backgroundBase
    split <;> rfl
  have hle : (if r.control.backgroundTable then 0x1000 else 0 : Nat) ≤ 0x1000 := by
    split <;> decide
  have hshift : (b.tile.toUInt16 <<< 4).toNat = 16 * b.tile.toNat :=
    toNat_shiftLeft_four (Nat.lt_trans htile (by decide))
  rw [planeAddress, UInt16.toNat_add, UInt16.toNat_add, hbase, hshift, UInt16.toNat_ofNat']
  omega

theorem fetched_planes (cart : κ) (m : Memory) (r : Registers) (p : ScrollAddress) :
    let b := fetched cart m r p
    let address := (if r.control.backgroundTable then 0x1000 else 0) + 16 * b.tile.toNat + p.fineY
    b.planeLow = Cartridge.readPattern cart (.ofNat address) ∧
      b.planeHigh = Cartridge.readPattern cart (.ofNat (address + 8)) := by
  intro b address
  have haddress : (b.planeAddress { r with v := p }).toNat = address := planeAddress_toNat b _
  have htile : b.tile.toNat < 256 := b.tile.toNat_lt
  have hfine := p.fineY.isLt
  have hle : (if r.control.backgroundTable then 0x1000 else 0 : Nat) ≤ 0x1000 := by
    split <;> decide
  have hlt : address + 8 < 0x2000 := by
    simp only [address]
    omega
  exact m.read_planes cart r.mask.colourMask haddress hlt

theorem palette_bits (palette : UInt8) :
    atBit (bit (palette &&& 3) 1) 1 ||| atBit (bit (palette &&& 3) 0) 0 = palette &&& 3 := by
  revert palette
  decide +kernel

/-- A tile that has been fetched shows the plane of the nametables. -/
theorem fetched_dot {p : ScrollAddress} (hp : p.coarseY ≤ 29) {X : Nat}
    (hcolumn : p.column = X / 8) :
    (fetched cart m r p).dot (X % 8) = m.planeDot cart r.control X p.line := by
  have hfine := p.fineY.isLt
  have hcoarse := p.coarseX.isLt
  replace hp : p.coarseY.val ≤ 29 := hp
  have hplace : X / 256 + 2 * (p.line / 240) = p.table ∧ X % 256 / 8 = p.coarseX ∧
      p.line % 240 / 8 = p.coarseY ∧ p.line % 8 = p.fineY := by
    have hright := p.tableX.toNat_le
    have hlower := p.tableY.toNat_le
    unfold ScrollAddress.column at hcolumn
    unfold ScrollAddress.table ScrollAddress.line
    omega
  obtain ⟨htable, hx, hy, hline⟩ := hplace
  have htile : (fetched cart m r p).tile = (m.tileAt p.table p.coarseX p.coarseY).1 :=
    m.read_tileAddress cart r.mask.colourMask p
  have hpalette : (fetched cart m r p).palette = (m.tileAt p.table p.coarseX p.coarseY).2 :=
    m.read_attributeAddress cart r.mask.colourMask p
  obtain ⟨hlow, hhigh⟩ := fetched_planes cart m r p
  unfold Memory.planeDot
  simp only [htable, hx, hy, hline]
  rw [dot, hlow, hhigh, ← htile, ← hpalette]
  congr 1
  exact palette_bits _

end Background

theorem Raster.colour_of_none {raster : Raster} (h : raster.spriteDot r = none) :
    raster.colour m r =
      m.colour r.mask.colourMask (raster.backgroundDot r).2 (raster.backgroundDot r).1 := by
  rw [colour, h]

/-- The background of a pixel as memory and the registers at the beginning of the frame have it. -/
def scrolledDot (cart : κ) (m : Memory) (r : Registers) (x y : Nat) : UInt8 × UInt8 :=
  if r.mask.backgroundAt x then
    let first := Background.fetched cart m r (r.t.walk y (x / 8))
    let second := Background.fetched cart m r (r.t.walk y (x / 8 + 1))
    let b := Background.joined first second (x % 8)
    (b.pixel r.fineX, b.pixelPalette r.fineX)
  else (0, 0)

/-- **What shows is the plane of the nametables, scrolled.** -/
theorem scrolledDot_eq {x : Nat} (hfine : r.fineX.toNat ≤ 7) (hcoarse : r.t.coarseY ≤ 29)
    (hshow : r.mask.backgroundAt x = true) (y : Nat) :
    scrolledDot cart m r x y =
      m.planeDot cart r.control ((8 * r.t.column + r.fineX.toNat + x) % 512)
        ((r.t.line + y) % 480) := by
  have hmod : x % 8 ≤ 7 := Nat.le_of_lt_succ (Nat.mod_lt x (by decide))
  have hlt := r.t.column_lt
  have hbit : (r.fineX.toNat + x % 8) % 8 = (8 * r.t.column + r.fineX.toNat + x) % 512 % 8 := by
    omega
  rw [scrolledDot, if_pos hshow, Background.dot_joined hfine hmod, hbit]
  by_cases hfirst : r.fineX.toNat + x % 8 < 8
  · obtain ⟨hrow, hline⟩ := ScrollAddress.line_walk hcoarse y (x / 8)
    have hcolumn := r.t.column_walk y (x / 8)
    rw [if_pos hfirst, Background.fetched_dot hrow (by rw [hcolumn]; omega), hline]
  · obtain ⟨hrow, hline⟩ := ScrollAddress.line_walk hcoarse y (x / 8 + 1)
    have hcolumn := r.t.column_walk y (x / 8 + 1)
    rw [if_neg hfirst, Background.fetched_dot hrow (by rw [hcolumn]; omega), hline]

namespace Scan

variable [PixelSink σ] {s : Scan σ}

theorem before_backgroundDot (hs : s.raster.beam = .start) {x y : Nat} (hx : x < width)
    (hy : y < height) :
    (s.before cart m x y).raster.moved.backgroundDot (s.before cart m x y).regs =
      scrolledDot cart m s.regs x y := by
  have hfollows := before_follows cart m hs x y
  rw [Raster.backgroundDot, before_column cart m hs hx, hfollows.mask, hfollows.fineX, scrolledDot]
  by_cases hshow : s.regs.mask.backgroundAt x = true
  · have hrender : s.regs.mask.rendering = true := by
      unfold Mask.backgroundAt at hshow
      unfold Mask.rendering
      rw [(Bool.and_eq_true_iff.mp hshow).1, Bool.true_or]
    have hdrawing := (after_onRow cart m hs hrender (y + 1) hy
      (Nat.le_of_lt (Nat.lt_trans hx (by decide : width < 340)))).drawing y rfl (Nat.le_of_lt hx)
    rw [if_pos hshow, if_pos hshow]
    exact Prod.ext hdrawing.holds.pixel hdrawing.holds.pixelPalette
  · rw [if_neg hshow, if_neg hshow]

theorem colourAt_background (hs : s.raster.beam = .start)
    (hshow : s.regs.mask.showBackground = true) (hsprites : s.regs.mask.showSprites = false)
    (hcoarse : s.regs.t.coarseY ≤ 29) (hfine : s.regs.fineX ≤ 7) {x y : Nat} (hx : x < width)
    (hy : y < height) :
    s.colourAt cart m x y =
      m.planeColour cart s.regs x ((8 * s.regs.t.column + s.regs.fineX.toNat + x) % 512)
        ((s.regs.t.line + y) % 480) := by
  have hfollows := before_follows cart m hs x y
  have hnone : (s.before cart m x y).raster.moved.spriteDot (s.before cart m x y).regs = none := by
    rw [Raster.spriteDot, hfollows.mask, Mask.spritesAt, hsprites, Bool.false_and,
      if_neg Bool.false_ne_true]
  have hat : s.regs.mask.backgroundAt x = true ↔
      ¬ (x < 8 ∧ s.regs.mask.backgroundLeft = false) := by
    unfold Mask.backgroundAt
    cases s.regs.mask.backgroundLeft <;> simp [hshow]
  rw [colourAt, Raster.colour_of_none hnone, before_backgroundDot hs hx hy, hfollows.mask]
  unfold Memory.planeColour
  by_cases hleft : x < 8 ∧ s.regs.mask.backgroundLeft = false
  · have hhidden : ¬ s.regs.mask.backgroundAt x = true := fun h => hat.mp h hleft
    simp only [scrolledDot, if_neg hhidden, hleft, and_self, or_true, if_true]
  · rw [scrolledDot_eq hfine hcoarse (hat.mpr hleft)]
    simp only [hleft, or_false]
    split
    · rename_i hvalue
      rw [hvalue]
      rfl
    · rfl

/-- **The picture of a scrolled background.**  Whatever the raster did before and wherever the
position in view stood, a frame without sprites shows the plane of the nametables from the pixel on
that was set up. -/
theorem runUntil_background (cart : κ) (m : Memory) (raster : Raster) (r : Registers) (sink : σ)
    (hshow : r.mask.showBackground = true) (hsprites : r.mask.showSprites = false)
    (hcoarse : r.t.coarseY ≤ 29) (hfine : r.fineX ≤ 7) :
    (runUntil cart m (ticksPerLine * 241) ⟨raster.beginFrame, r, sink⟩).sink =
      sendPicture (fun x y => m.planeColour cart r x
        ((256 * r.t.tableX.toNat + 8 * r.t.coarseX + r.fineX.toNat + x) % 512)
        ((240 * r.t.tableY.toNat + 8 * r.t.coarseY + r.t.fineY + y) % 480)) sink := by
  rw [runUntil_sink rfl]
  apply sendPicture_congr
  intro x hx y hy
  have hcolumn : 8 * r.t.column = 256 * r.t.tableX.toNat + 8 * r.t.coarseX := by
    unfold ScrollAddress.column
    omega
  rw [colourAt_background rfl hshow hsprites hcoarse hfine hx hy, hcolumn]
  rfl

/-- The theorem at a scroll that begins in the last tile of the last table. -/
theorem runUntil_background_corner :
    let r : Registers :=
      { mask := { showBackground := true }
        t := { tableX := true, tableY := true, coarseX := 31, coarseY := 29, fineY := 7 }
        fineX := 5 }
    r.t.coarseY ≤ 29 ∧ r.fineX ≤ 7 ∧
      (runUntil Board.blank (.empty .fourScreen) (ticksPerLine * 241)
          ⟨Raster.beginFrame {}, r, Screen.blank⟩).sink =
        sendPicture (fun x y => (Memory.empty .fourScreen).planeColour Board.blank r x
          ((509 + x) % 512) ((479 + y) % 480)) Screen.blank :=
  ⟨by decide, by decide,
    runUntil_background Board.blank (.empty .fourScreen) {} _ Screen.blank rfl rfl (by decide)
      (by decide)⟩

end Scan

end Famicom.Picture
