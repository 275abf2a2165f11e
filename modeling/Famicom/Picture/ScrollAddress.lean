import Famicom.Word

/-!
# Scroll addresses

An address of the picture memory that doubles as a scroll position.  Its bits, from the top, are a
spare one, three for the line within a tile, one each for the lower and the right nametable, five
for the row of tiles and five for the column: `s yyy NN YYYYY XXXXX`.  It is kept as these digits,
and `toNat`, `ofNat` give and take the number.
-/

namespace Famicom.Picture

/-- A position in the plane of the four nametables, and the address that it is. -/
structure ScrollAddress where
  /-- the top bit of the word, which no address needs -/
  spare : Bool := false
  /-- the line within the tile -/
  fineY : Fin 8 := 0
  /-- whether the position lies in the lower tables -/
  tableY : Bool := false
  /-- whether the position lies in the right tables -/
  tableX : Bool := false
  coarseY : Fin 32 := 0
  coarseX : Fin 32 := 0
  deriving DecidableEq, Repr, Inhabited

namespace ScrollAddress

def zero : ScrollAddress := {}

/-- The number whose digits these are. -/
def toNat (v : ScrollAddress) : Nat :=
  v.coarseX + 32 * v.coarseY + 1024 * v.tableX.toNat + 2048 * v.tableY.toNat + 4096 * v.fineY +
    32768 * v.spare.toNat

def ofNat (n : Nat) : ScrollAddress where
  coarseX := ⟨n % 32, Nat.mod_lt _ (by decide)⟩
  coarseY := ⟨n / 32 % 32, Nat.mod_lt _ (by decide)⟩
  tableX := n / 1024 % 2 == 1
  tableY := n / 2048 % 2 == 1
  fineY := ⟨n / 4096 % 8, Nat.mod_lt _ (by decide)⟩
  spare := n / 32768 % 2 == 1

def word (v : ScrollAddress) : UInt16 := .ofNat v.toNat

/-- One tile to the right, into the next table after the last column. -/
def right (v : ScrollAddress) : ScrollAddress :=
  if v.coarseX = 31 then { v with coarseX := 0, tableX := !v.tableX }
  else { v with coarseX := v.coarseX + 1 }

/-- One line down.  The last row of tiles is row 29, after which the next table begins; from the
rows below it, which hold attributes, the position wraps within its table. -/
def down (v : ScrollAddress) : ScrollAddress :=
  if v.fineY = 7 then
    let v := { v with fineY := 0 }
    if v.coarseY = 29 then { v with coarseY := 0, tableY := !v.tableY }
    else if v.coarseY = 31 then { v with coarseY := 0 }
    else { v with coarseY := v.coarseY + 1 }
  else { v with fineY := v.fineY + 1 }

/-- Takes column and side from another position. -/
def copyHorizontal (v t : ScrollAddress) : ScrollAddress :=
  { v with coarseX := t.coarseX, tableX := t.tableX }

/-- Takes row, line and half from another position. -/
def copyVertical (v t : ScrollAddress) : ScrollAddress :=
  { v with coarseY := t.coarseY, tableY := t.tableY, fineY := t.fineY }

/-- Moves the address along by a number of cells, within fifteen bits. -/
def advance (v : ScrollAddress) (step : Nat) : ScrollAddress := ofNat ((v.toNat + step) % 32768)

/-- The address of the tile's number. -/
def tileAddress (v : ScrollAddress) : UInt16 := .ofNat (0x2000 + v.toNat % 4096)

/-- The address of the byte with the palette of the tile: one byte serves four by four tiles. -/
def attributeAddress (v : ScrollAddress) : UInt16 :=
  .ofNat (0x23C0 + 1024 * v.tableX.toNat + 2048 * v.tableY.toNat + 8 * (v.coarseY / 4) +
    v.coarseX / 4)

/-- Where in that byte the palette of the tile stands: two bits serve two by two tiles. -/
def attributeShift (v : ScrollAddress) : UInt8 :=
  .ofNat (4 * (v.coarseY / 2 % 2) + 2 * (v.coarseX / 2 % 2))

@[simp] theorem ofNat_toNat (v : ScrollAddress) : ofNat v.toNat = v := by
  obtain ⟨spare, ⟨y, hy⟩, tableY, tableX, ⟨r, hr⟩, ⟨c, hc⟩⟩ := v
  cases spare <;> cases tableY <;> cases tableX <;>
    simp [ofNat, toNat] <;> refine ⟨?_, ?_, ?_, ?_, ?_, ?_⟩ <;> omega

theorem toNat_ofNat {n : Nat} (h : n < 65536) : (ofNat n).toNat = n := by
  simp only [toNat, ofNat]
  have bool (k : Nat) : (k % 2 == 1).toNat = k % 2 := by
    rcases Nat.mod_two_eq_zero_or_one k with h | h <;> simp [h]
  rw [bool, bool, bool]
  omega

theorem toNat_lt (v : ScrollAddress) : v.toNat < 65536 := by
  have := v.coarseX.isLt; have := v.coarseY.isLt; have := v.fineY.isLt
  have h (b : Bool) : b.toNat ≤ 1 := by cases b <;> decide
  have := h v.tableX; have := h v.tableY; have := h v.spare
  unfold toNat
  omega

end ScrollAddress

end Famicom.Picture
