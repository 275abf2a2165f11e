import Famicom.Proofs.Picture.Plane

/-!
# Addresses out of packed bits

The unit keeps a scroll address as one word and gets the addresses of a tile and of its palette out
of it by shifts and masks (`packedTile`, `packedAttribute`, `packedShift`).  These are the addresses
that the digits give (`tileAddress_eq_packed`, `attributeAddress_eq_packed`,
`attributeShift_eq_packed`), in the rows that hold attributes too.  So a view of a nametable, which
counts columns and rows, shows what the unit fetches (`tileAt_fetched`).
-/

namespace Famicom

/-- A mask with `k` bits that begins `s` places up. -/
theorem and_place {m p : Nat} (n k s : Nat) (hm : 1 <<< k = m) (hp : 1 <<< s = p) :
    n &&& ((m - 1) * p) = n / p % m * p := by
  rw [Nat.one_shiftLeft] at hm hp
  subst hm hp
  apply Nat.eq_of_testBit_eq
  intro j
  rw [Nat.testBit_and, Nat.testBit_mul_two_pow, Nat.testBit_mul_two_pow,
    Nat.testBit_two_pow_sub_one, Nat.testBit_mod_two_pow, Nat.testBit_div_two_pow]
  by_cases hj : s ≤ j
  · rw [Nat.sub_add_cancel hj, decide_eq_true hj, Bool.true_and, Bool.true_and, Bool.and_comm]
  · simp [hj]

/-- Bits below the places that are taken. -/
theorem or_below {b s : Nat} (h : b < 1 <<< s) (a : Nat) : a <<< s ||| b = a <<< s + b := by
  rw [Nat.one_shiftLeft] at h
  exact (Nat.shiftLeft_add_eq_or_of_lt h a).symm

namespace Picture.ScrollAddress

/-- The address of a tile's number, out of the packed scroll address. -/
def packedTile (w : UInt16) : UInt16 := 0x2000 ||| (w &&& 0x0FFF)

/-- The address of the byte with the tile's palette. -/
def packedAttribute (w : UInt16) : UInt16 :=
  0x23C0 ||| (w &&& 0x0C00) ||| (w >>> (4 : UInt16) &&& 0x38) ||| (w >>> (2 : UInt16) &&& 0x07)

/-- Where the palette stands in that byte. -/
def packedShift (w : UInt16) : UInt16 :=
  (((w &&& 0x03E0) >>> 5 &&& 0x02) <<< 1) ||| (w &&& 0x001F &&& 0x02)

theorem toNat_word (v : ScrollAddress) : v.word.toNat = v.toNat :=
  UInt16.toNat_ofNat_of_lt' v.toNat_lt

theorem digits (v : ScrollAddress) :
    v.toNat % 32 = v.coarseX ∧ v.toNat / 32 % 32 = v.coarseY ∧ v.toNat / 1024 % 4 = v.table := by
  have hx := v.coarseX.isLt
  have hy := v.coarseY.isLt
  have hX : v.tableX.toNat ≤ 1 := Bool.toNat_le _
  have hY : v.tableY.toNat ≤ 1 := Bool.toNat_le _
  unfold toNat table
  omega

theorem tileAddress_eq_packed (v : ScrollAddress) : v.tileAddress = packedTile v.word := by
  apply UInt16.toNat_inj.mp
  have hmask : v.toNat &&& 0x0FFF = v.toNat % 4096 := Nat.and_two_pow_sub_one_eq_mod _ 12
  have hpacked : (packedTile v.word).toNat = 0x2000 + v.toNat % 4096 := by
    rw [packedTile, UInt16.toNat_or, UInt16.toNat_and, toNat_word]
    show 0x2000 ||| (v.toNat &&& 0x0FFF) = _
    rw [hmask]
    exact or_below (s := 13) (by omega) 1
  rw [hpacked, tileAddress, UInt16.toNat_ofNat_of_lt' (by simp only [UInt16.size]; omega)]

/-! ### Fields of the packed address -/

theorem and_table (v : ScrollAddress) : v.toNat &&& 0x0C00 = v.table <<< 10 := by
  obtain ⟨-, -, ht⟩ := v.digits
  refine (and_place v.toNat 2 10 (m := 4) (p := 1024) rfl rfl).trans ?_
  omega

/-- Four rows of tiles share a row of attributes. -/
theorem and_attributeRow (v : ScrollAddress) :
    (v.toNat >>> 4) &&& 0x38 = (v.coarseY.val / 4) <<< 3 := by
  obtain ⟨-, hy, -⟩ := v.digits
  refine (and_place (v.toNat >>> 4) 3 3 (m := 8) (p := 8) rfl rfl).trans ?_
  omega

theorem and_attributeColumn (v : ScrollAddress) :
    (v.toNat >>> 2) &&& 0x07 = v.coarseX / 4 := by
  obtain ⟨hx, -, -⟩ := v.digits
  refine (and_place (v.toNat >>> 2) 3 0 (m := 8) (p := 1) rfl rfl).trans ?_
  omega

theorem and_row (v : ScrollAddress) : (v.toNat &&& 0x03E0) >>> 5 = v.coarseY := by
  obtain ⟨-, hy, -⟩ := v.digits
  rw [show v.toNat &&& 0x03E0 = _ from and_place v.toNat 5 5 (m := 32) (p := 32) rfl rfl]
  omega

theorem and_column (v : ScrollAddress) : v.toNat &&& 0x001F = v.coarseX :=
  (Nat.and_two_pow_sub_one_eq_mod _ 5).trans v.digits.1

/-- In a block of four by four tiles, the second bit tells the halves apart. -/
theorem and_half (n : Nat) : n &&& 0x02 = (n / 2 % 2) <<< 1 := by
  refine (and_place n 1 1 (m := 2) (p := 2) rfl rfl).trans ?_
  omega

/-! ### Attributes -/

theorem toNat_packedAttribute (v : ScrollAddress) :
    (packedAttribute v.word).toNat =
      0x23C0 + 1024 * v.table + 8 * (v.coarseY / 4) + v.coarseX / 4 := by
  have hcolumn := v.coarseX.isLt
  have hrow := v.coarseY.isLt
  have htable : v.table < 4 := by
    obtain ⟨-, -, ht⟩ := v.digits
    omega
  -- the table's number lies in the gap of the base address
  have hbase : ∀ t < 4, 0x23C0 ||| t <<< 10 = (0x8F + 16 * t) <<< 6 := by decide
  have hthree : (0x8F + 16 * v.table) <<< 6 + (v.coarseY.val / 4) <<< 3 =
      (8 * (0x8F + 16 * v.table) + v.coarseY / 4) <<< 3 := by omega
  simp only [packedAttribute, UInt16.toNat_or, UInt16.toNat_and, UInt16.toNat_shiftRight,
    toNat_word]
  show 0x23C0 ||| (v.toNat &&& 0x0C00) ||| ((v.toNat >>> 4) &&& 0x38) |||
    ((v.toNat >>> 2) &&& 0x07) = _
  rw [and_table, and_attributeRow, and_attributeColumn, hbase _ htable, or_below (by omega),
    hthree, or_below (by omega)]
  omega

theorem attributeAddress_eq_packed (v : ScrollAddress) :
    v.attributeAddress = packedAttribute v.word := by
  apply UInt16.toNat_inj.mp
  have hdigits : v.attributeAddress =
      .ofNat (0x23C0 + 1024 * v.table + 8 * (v.coarseY / 4) + v.coarseX / 4) := by
    rw [attributeAddress]
    congr 3
    unfold table
    omega
  have hlt := (packedAttribute v.word).toNat_lt
  rw [toNat_packedAttribute] at hlt ⊢
  rw [hdigits, UInt16.toNat_ofNat_of_lt' hlt]

theorem toNat_packedShift (v : ScrollAddress) :
    (packedShift v.word).toUInt8.toNat =
      (4 * (v.coarseY / 2 % 2) + 2 * (v.coarseX / 2 % 2)) % 256 := by
  have hplace : (v.coarseY.val / 2 % 2) <<< 1 <<< 1 % 65536 = (v.coarseY.val / 2 % 2) <<< 2 := by
    omega
  simp only [packedShift, UInt16.toNat_toUInt8, UInt16.toNat_or, UInt16.toNat_and,
    UInt16.toNat_shiftRight, UInt16.toNat_shiftLeft, toNat_word]
  show (((v.toNat &&& 0x03E0) >>> 5 &&& 0x02) <<< 1 % 65536 |||
    (v.toNat &&& 0x001F &&& 0x02)) % 256 = _
  rw [and_row, and_column, and_half, and_half, hplace, or_below (by omega)]
  omega

theorem attributeShift_eq_packed (v : ScrollAddress) :
    v.attributeShift = (packedShift v.word).toUInt8 := by
  apply UInt8.toNat_inj.mp
  rw [toNat_packedShift]
  rfl

end Picture.ScrollAddress

open Picture ScrollAddress

variable {κ : Type} [Cartridge κ]

/-- The view of a cell of a nametable shows what the unit fetches at a scroll address: what stands
at the two packed addresses, which is what the two fetches leave. -/
structure Console.ShowsFetched (c : Console κ) (table column row : Nat) (v : ScrollAddress) :
    Prop where
  packed : c.tileAt table column row =
    let read := c.machine.bus.video.readMemory c.machine.bus.cartridge
    (read (packedTile v.word),
      (read (packedAttribute v.word) >>> (packedShift v.word).toUInt8) &&& 3)
  fetched (b : Background) : c.tileAt table column row =
    let video := c.machine.bus.video
    let r : Registers := { video.regs with v }
    ((b.fetchTile c.machine.bus.cartridge video.memory r).tile,
      (b.fetchPalette c.machine.bus.cartridge video.memory r).palette)

/-- **The view of the nametables shows what the unit fetches**, whichever line of a tile the unit is
about to draw. -/
theorem Console.tileAt_fetched (c : Console κ) {table column row : Nat} {v : ScrollAddress}
    (htable : v.table = table) (hcolumn : v.coarseX = column) (hrow : v.coarseY = row) :
    c.ShowsFetched table column row v := by
  let video := c.machine.bus.video
  have hshown (colours : UInt8) : c.tileAt table column row =
      (video.memory.read c.machine.bus.cartridge colours v.tileAddress,
        (video.memory.read c.machine.bus.cartridge colours v.attributeAddress >>>
          v.attributeShift) &&& 3) := by
    rw [Memory.read_tileAddress, Memory.read_attributeAddress, htable, hcolumn, hrow]
    rfl
  refine ⟨?_, fun b => hshown _⟩
  rw [← tileAddress_eq_packed, ← attributeAddress_eq_packed, ← attributeShift_eq_packed]
  exact hshown _

/-- A cell in the rows that hold the palettes themselves. -/
theorem Console.tileAt_fetched_attributes :
    let c : Console Board := { machine := { cpu := {}, bus := .plug Board.blank } }
    let v : ScrollAddress :=
      { fineY := 5, tableY := true, tableX := true, coarseY := 30, coarseX := 31 }
    (v.table = 3 ∧ v.coarseX.val = 31 ∧ v.coarseY.val = 30) ∧ c.ShowsFetched 3 31 30 v :=
  ⟨by decide, Console.tileAt_fetched _ rfl rfl rfl⟩

end Famicom
