import Famicom.Console.Views
import Mathlib.Logic.Function.Iterate

/-!
# The plane of the nametables

The four logical nametables lie two by two and make a plane of 512 by 480 pixels, which closes up at
its edges.  A scroll address is a place on it: `column` counts tiles from the left and `line` pixels
from the top.  Moving the address right or down moves the place by one, modulo the size of the plane
(`column_right`, `line_down`); and what the unit fetches at an address is what the tables hold at
that place (`read_tileAddress`, `read_attributeAddress`).

`Memory.planeDot` says what the plane shows at a pixel, from the tables and the patterns alone.
-/

namespace Famicom.Picture

namespace ScrollAddress

/-! ### Places -/

/-- The column of tiles, from the left edge of the plane. -/
def column (v : ScrollAddress) : Nat := v.coarseX + 32 * v.tableX.toNat

/-- The line of pixels, from the top edge of the plane. -/
def line (v : ScrollAddress) : Nat := 240 * v.tableY.toNat + 8 * v.coarseY + v.fineY

def table (v : ScrollAddress) : Nat := v.tableX.toNat + 2 * v.tableY.toNat

/-- The address has the line of another one. -/
def SameLine (v w : ScrollAddress) : Prop :=
  v.fineY = w.fineY ∧ v.coarseY = w.coarseY ∧ v.tableY = w.tableY

theorem SameLine.line_eq {v w : ScrollAddress} (h : SameLine v w) : v.line = w.line := by
  obtain ⟨hfine, hcoarse, htable⟩ := h
  rw [line, hfine, hcoarse, htable, line]

theorem column_lt (v : ScrollAddress) : v.column < 64 := by
  have hlt := v.coarseX.isLt
  unfold column
  cases v.tableX <;> simp only [Bool.toNat_false, Bool.toNat_true] <;> omega

theorem line_lt {v : ScrollAddress} (h : v.coarseY ≤ 29) : v.line < 480 := by
  have hfine := v.fineY.isLt
  replace h : v.coarseY.val ≤ 29 := h
  unfold line
  cases v.tableY <;> simp only [Bool.toNat_false, Bool.toNat_true] <;> omega

/-! ### Moving -/

theorem column_right (v : ScrollAddress) : v.right.column = (v.column + 1) % 64 := by
  unfold right
  by_cases h : v.coarseX = 31
  · rw [if_pos h]
    simp only [column, h]
    cases v.tableX <;> rfl
  · have hne : v.coarseX.val ≠ 31 := fun he => h (Fin.ext he)
    have hlt : v.coarseX.val < 31 := Nat.lt_of_le_of_ne (Nat.le_of_lt_succ v.coarseX.isLt) hne
    have hval : (v.coarseX + 1).val = v.coarseX.val + 1 := Fin.val_add_one_of_lt hlt
    rw [if_neg h]
    simp only [column, hval]
    cases v.tableX <;> simp only [Bool.toNat_false, Bool.toNat_true] <;> omega

theorem sameLine_right (v : ScrollAddress) : SameLine v.right v := by
  unfold right
  split <;> exact ⟨rfl, rfl, rfl⟩

theorem column_down (v : ScrollAddress) : v.down.column = v.column := by
  unfold down
  split
  · dsimp only
    split
    · rfl
    · split <;> rfl
  · rfl

theorem line_down {v : ScrollAddress} (h : v.coarseY ≤ 29) :
    v.down.coarseY ≤ 29 ∧ v.down.line = (v.line + 1) % 480 := by
  replace h : v.coarseY.val ≤ 29 := h
  have hfine := v.fineY.isLt
  unfold down
  by_cases h7 : v.fineY = 7
  · rw [if_pos h7]
    by_cases h29 : v.coarseY = 29
    · simp only [h29, if_true, line, h7]
      constructor
      · decide
      · cases v.tableY <;> rfl
    · have hne : v.coarseY.val ≠ 29 := fun he => h29 (Fin.ext he)
      have hlt : v.coarseY.val < 31 := Nat.lt_of_le_of_lt h (by decide)
      have h31 : v.coarseY ≠ 31 := fun he => Nat.ne_of_lt hlt (congrArg Fin.val he)
      have hval : (v.coarseY + 1).val = v.coarseY.val + 1 := Fin.val_add_one_of_lt hlt
      simp only [if_neg h29, if_neg h31, line, hval, h7]
      constructor
      · show (v.coarseY + 1).val ≤ 29
        omega
      · cases v.tableY <;> simp <;> omega
  · have hne : v.fineY.val ≠ 7 := fun he => h7 (Fin.ext he)
    have hlt : v.fineY.val < 7 := Nat.lt_of_le_of_ne (Nat.le_of_lt_succ hfine) hne
    have hval : (v.fineY + 1).val = v.fineY.val + 1 := Fin.val_add_one_of_lt hlt
    rw [if_neg h7]
    simp only [line, hval]
    constructor
    · exact h
    · cases v.tableY <;> simp <;> omega

theorem right_copyHorizontal (v w : ScrollAddress) :
    v.right.copyHorizontal w = v.copyHorizontal w := by
  unfold right
  split <;> rfl

theorem down_copyHorizontal (v w : ScrollAddress) :
    (v.copyHorizontal w).down = v.down.copyHorizontal w := by
  unfold down copyHorizontal
  dsimp only
  split
  · split
    · rfl
    · split <;> rfl
  · rfl

/-- The position `n` tiles to the right on the line `y` lines down. -/
def walk (t : ScrollAddress) (y n : Nat) : ScrollAddress := right^[n] (down^[y] t)

theorem walk_succ (t : ScrollAddress) (y n : Nat) : t.walk y (n + 1) = (t.walk y n).right :=
  Function.iterate_succ_apply' right n _

/-- From anywhere on a line the position goes to the beginning of the next one. -/
theorem walk_turn (t : ScrollAddress) (y n : Nat) :
    (t.walk y n).down.copyHorizontal t = t.walk (y + 1) 0 := by
  have hright : (t.walk y n).copyHorizontal t = (t.walk y 0).copyHorizontal t := by
    induction n with
    | zero => rfl
    | succ n ih => rw [walk_succ, right_copyHorizontal, ih]
  have hdown (k : Nat) : (down^[k] t).copyHorizontal t = down^[k] t := by
    induction k with
    | zero => rfl
    | succ k ih =>
      rw [Function.iterate_succ_apply', ← down_copyHorizontal, ih]
  calc (t.walk y n).down.copyHorizontal t
      = ((t.walk y n).copyHorizontal t).down := (down_copyHorizontal _ _).symm
    _ = (down^[y] t).down := by rw [hright]; exact congrArg down (hdown y)
    _ = t.walk (y + 1) 0 := (Function.iterate_succ_apply' down y t).symm

theorem column_walk (t : ScrollAddress) (y n : Nat) :
    (t.walk y n).column = (t.column + n) % 64 := by
  have hdown : (down^[y] t).column = t.column := by
    induction y with
    | zero => rfl
    | succ y ih => rw [Function.iterate_succ_apply', column_down, ih]
  induction n with
  | zero => exact hdown.trans (Nat.mod_eq_of_lt t.column_lt).symm
  | succ n ih =>
    rw [walk_succ, column_right, ih]
    omega

theorem sameLine_walk (t : ScrollAddress) (y n : Nat) : SameLine (t.walk y n) (t.walk y 0) := by
  induction n with
  | zero => exact ⟨rfl, rfl, rfl⟩
  | succ n ih =>
    have hright := sameLine_right (t.walk y n)
    rw [walk_succ]
    exact ⟨hright.1.trans ih.1, hright.2.1.trans ih.2.1, hright.2.2.trans ih.2.2⟩

theorem line_walk {t : ScrollAddress} (h : t.coarseY ≤ 29) (y n : Nat) :
    (t.walk y n).coarseY ≤ 29 ∧ (t.walk y n).line = (t.line + y) % 480 := by
  have hdown : (down^[y] t).coarseY ≤ 29 ∧ (down^[y] t).line = (t.line + y) % 480 := by
    induction y with
    | zero => exact ⟨h, (Nat.mod_eq_of_lt (line_lt h)).symm⟩
    | succ y ih =>
      obtain ⟨hrow, hline⟩ := line_down ih.1
      rw [Function.iterate_succ_apply']
      refine ⟨hrow, ?_⟩
      rw [hline, ih.2]
      omega
  have hsame := sameLine_walk t y n
  refine ⟨?_, hsame.line_eq.trans hdown.2⟩
  rw [hsame.2.1]
  exact hdown.1

end ScrollAddress

/-! ### What stands at a place -/

namespace Memory

variable {κ : Type} [Cartridge κ] (m : Memory) (cart : κ) (colours : UInt8)

theorem wrapAddress_of_lt {address : UInt16} (h : address.toNat < 0x4000) :
    wrapAddress address = address := by
  rw [← UInt16.toNat_inj, toNat_wrapAddress, Nat.mod_eq_of_lt h]

theorem read_pattern {address : UInt16} (h : address.toNat < 0x2000) :
    m.read cart colours address = Cartridge.readPattern cart address := by
  have hlt : address < 0x2000 := UInt16.lt_iff_toNat_lt.mpr h
  unfold read
  simp only [wrapAddress_of_lt (Nat.lt_trans h (by decide)), if_pos hlt]

theorem read_planes {address : UInt16} {n : Nat} (h : address.toNat = n) (hn : n + 8 < 0x2000) :
    m.read cart colours address = Cartridge.readPattern cart (.ofNat n) ∧
      m.read cart colours (address + 8) = Cartridge.readPattern cart (.ofNat (n + 8)) := by
  have hlow : address = .ofNat n := by
    rw [← h, UInt16.ofNat_toNat]
  have hhigh : address + 8 = .ofNat (n + 8) := by
    rw [hlow]
    exact (UInt16.ofNat_add n 8).symm
  have hnumber : (UInt16.ofNat (n + 8)).toNat = n + 8 :=
    UInt16.toNat_ofNat_of_lt' (Nat.lt_trans hn (by decide))
  rw [hhigh, m.read_pattern cart colours (by omega), m.read_pattern cart colours (by omega), hlow]
  exact ⟨rfl, rfl⟩

theorem read_table {n : Nat} (h : n < 0x1000) :
    m.read cart colours (.ofNat (0x2000 + n)) = m.tableByteAt (n / 0x400) (n % 0x400) := by
  have haddress : (UInt16.ofNat (0x2000 + n)).toNat = 0x2000 + n :=
    UInt16.toNat_ofNat_of_lt' (by simp only [UInt16.size]; omega)
  have hpattern : ¬ UInt16.ofNat (0x2000 + n) < 0x2000 := by
    rw [UInt16.lt_iff_toNat_lt, haddress]
    exact Nat.not_lt.mpr (Nat.le_add_right _ _)
  have htable : UInt16.ofNat (0x2000 + n) < 0x3F00 := by
    rw [UInt16.lt_iff_toNat_lt, haddress]
    show 0x2000 + n < 0x3F00
    omega
  have hplace : tablePlace (.ofNat (0x2000 + n)) =
      (⟨n / 0x400 % 4, Nat.mod_lt _ (by decide)⟩,
        ⟨n % 0x400 % 0x400, Nat.mod_lt _ (by decide)⟩) := by
    unfold tablePlace
    simp only [haddress, Prod.mk.injEq, Fin.mk.injEq]
    omega
  have hwrap : wrapAddress (.ofNat (0x2000 + n)) = .ofNat (0x2000 + n) :=
    wrapAddress_of_lt (by rw [haddress]; omega)
  unfold read tableByteAt tableByte
  simp only [hwrap, if_neg hpattern, if_pos htable, addressCell, hplace]

theorem read_tileAddress (v : ScrollAddress) :
    m.read cart colours v.tileAddress = (m.tileAt v.table v.coarseX v.coarseY).1 := by
  have hx := v.coarseX.isLt
  have hy := v.coarseY.isLt
  have hnumber : v.toNat % 4096 = 0x400 * v.table + (v.coarseY * 32 + v.coarseX) := by
    unfold ScrollAddress.toNat ScrollAddress.table
    cases v.tableX <;> cases v.tableY <;> simp only [Bool.toNat_false, Bool.toNat_true] <;> omega
  rw [ScrollAddress.tileAddress, read_table _ _ _ (Nat.mod_lt _ (by decide)), hnumber, tileAt]
  congr 1 <;> omega

theorem read_attributeAddress (v : ScrollAddress) :
    (m.read cart colours v.attributeAddress >>> v.attributeShift) &&& 3 =
      (m.tileAt v.table v.coarseX v.coarseY).2 := by
  have hx := v.coarseX.isLt
  have hy := v.coarseY.isLt
  have hX : v.tableX.toNat ≤ 1 := Bool.toNat_le _
  have hY : v.tableY.toNat ≤ 1 := Bool.toNat_le _
  have hnumber : 0x23C0 + 1024 * v.tableX.toNat + 2048 * v.tableY.toNat + 8 * (v.coarseY / 4) +
      v.coarseX / 4 = 0x2000 + (0x400 * v.table + (0x3C0 + v.coarseY / 4 * 8 + v.coarseX / 4)) := by
    unfold ScrollAddress.table
    omega
  have hoffset : 0x400 * v.table + (0x3C0 + v.coarseY / 4 * 8 + v.coarseX / 4) < 0x1000 := by
    unfold ScrollAddress.table
    omega
  rw [ScrollAddress.attributeAddress, hnumber, read_table _ _ _ hoffset, tileAt,
    ScrollAddress.attributeShift]
  congr 3 <;> omega

/-- The value and the palette of a pixel of the plane: two bits of the tile that lies there, and the
palette of the quarter of an attribute cell in which the tile lies. -/
def planeDot (c : Control) (X Y : Nat) : UInt8 × UInt8 :=
  let (tile, palette) := m.tileAt (X / 256 + 2 * (Y / 240)) (X % 256 / 8) (Y % 240 / 8)
  let address := (if c.backgroundTable then 0x1000 else 0) + 16 * tile.toNat + Y % 8
  let low := Cartridge.readPattern cart (.ofNat address)
  let high := Cartridge.readPattern cart (.ofNat (address + 8))
  let bit := 7 - X % 8
  (atBit (high.toNat.testBit bit) 1 ||| atBit (low.toNat.testBit bit) 0, palette)

def planeColour (r : Registers) (x X Y : Nat) : UInt8 :=
  let dot := m.planeDot cart r.control X Y
  if dot.1 = 0 ∨ (x < 8 ∧ r.mask.backgroundLeft = false) then m.colour r.mask.colourMask 0 0
  else m.colour r.mask.colourMask dot.2 dot.1

end Memory

end Famicom.Picture
