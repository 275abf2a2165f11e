import Famicom.Proofs.Picture.Plane
import Famicom.Proofs.Picture.Shifting
import Famicom.Proofs.Picture.Sprites

/-!
# The sprites of a picture

A slot waits until its sprite's first column, shows eight pixels, and is over (`SpriteSlot.advance`,
many times).  So the slot that shows in a column is that of the first candidate with an opaque pixel
there (`Drawing.front_eq`), and with the pixels read off the pattern tables (`Memory.spriteDot`) the
picture is put together as one expects (`Scan.runUntil_sprites`).
-/

namespace Famicom.Picture

variable {κ σ : Type} [Cartridge κ] {cart : κ} {m : Memory} {r r' : Registers}

/-! ### A slot column by column -/

namespace SpriteSlot

variable {s : SpriteSlot} {x : UInt8} {n : Nat}

theorem advance_of_waiting (h : s.active = 0) {k : Nat} (hk : s.countdown = .ofNat (k + 1)) :
    s.advance =
      { s with countdown := .ofNat k, active := if UInt8.ofNat k = 0 then 8 else 0 } := by
  have hcountdown : s.countdown - 1 = .ofNat k := by
    rw [hk, UInt8.ofNat_add]
    exact UInt8.add_sub_cancel _ 1
  unfold advance
  rw [h, if_neg (by decide), hcountdown]

theorem advance_of_active {k : Nat} (hk : k < 8) (h : s.active = .ofNat (k + 1)) :
    s.advance =
      { s with
        active := .ofNat k, planeLow := s.planeLow <<< 1, planeHigh := s.planeHigh <<< 1 } := by
  have hactive : s.active - 1 = .ofNat k := by
    rw [h, UInt8.ofNat_add]
    exact UInt8.add_sub_cancel _ 1
  have hpos : ∀ k < 8, 0 < UInt8.ofNat (k + 1) := by decide
  unfold advance
  rw [if_pos (h ▸ hpos k hk), hactive]

theorem ofNat_ne_zero {k : Nat} (hpos : 0 < k) (hlt : k < 256) : UInt8.ofNat k ≠ 0 := by
  intro h
  have hval : (UInt8.ofNat k).toNat = 0 := congrArg UInt8.toNat h
  rw [UInt8.toNat_ofNat_of_lt' hlt] at hval
  omega

/-- Before its first column the slot counts down. -/
theorem iterate_waiting (hn : n < x.toNat) :
    advance^[n] (s.place x) = { s with countdown := .ofNat (x.toNat - n), active := 0 } := by
  have hx := x.toNat_lt
  induction n with
  | zero =>
    have hne : x ≠ 0 := by
      rintro rfl
      exact Nat.lt_irrefl 0 hn
    show s.place x = _
    rw [place, if_neg hne, Nat.sub_zero, UInt8.ofNat_toNat]
  | succ n ih =>
    have hcountdown : UInt8.ofNat (x.toNat - n) = .ofNat (x.toNat - (n + 1) + 1) := by
      congr 1
      omega
    rw [Function.iterate_succ_apply', ih (Nat.lt_of_succ_lt hn), advance_of_waiting rfl hcountdown,
      if_neg (ofNat_ne_zero (by omega) (by omega))]

/-- From its first column on it shows eight pixels. -/
theorem iterate_shown (hn : n ≤ 8) :
    advance^[x.toNat + n] (s.place x) =
      { s with
        countdown := 0
        active := .ofNat (8 - n)
        planeLow := shifted s.planeLow n
        planeHigh := shifted s.planeHigh n } := by
  induction n with
  | zero =>
    cases hx : x.toNat with
    | zero =>
      obtain rfl : x = 0 := UInt8.toNat_inj.mp hx
      rfl
    | succ k =>
      have hcountdown : UInt8.ofNat (x.toNat - k) = .ofNat (0 + 1) := by
        congr 1
        omega
      rw [Nat.add_zero, Function.iterate_succ_apply', iterate_waiting (by omega),
        advance_of_waiting rfl hcountdown]
      rfl
  | succ n ih =>
    have hactive : UInt8.ofNat (8 - n) = .ofNat (8 - (n + 1) + 1) := by
      congr 1
      omega
    rw [← Nat.add_assoc, Function.iterate_succ_apply', ih (Nat.le_of_succ_le hn),
      advance_of_active (by omega) hactive]
    rfl

/-- Then it is over, for as long as a line lasts. -/
theorem iterate_over (hn : n < 255) :
    (advance^[x.toNat + 8 + n] (s.place x)).active = 0 ∧
      (advance^[x.toNat + 8 + n] (s.place x)).countdown = .ofNat (256 - n) := by
  induction n with
  | zero =>
    rw [Nat.add_zero, iterate_shown (Nat.le_refl 8)]
    exact ⟨rfl, rfl⟩
  | succ n ih =>
    obtain ⟨hactive, hcountdown⟩ := ih (Nat.lt_of_succ_lt hn)
    have hnext : UInt8.ofNat (256 - n) = .ofNat (256 - (n + 1) + 1) := by
      congr 1
      omega
    rw [← Nat.add_assoc, Function.iterate_succ_apply',
      advance_of_waiting hactive (hcountdown.trans hnext),
      if_neg (ofNat_ne_zero (by omega) (by omega))]
    exact ⟨rfl, rfl⟩

/-- The value of a slot's pixel, by its column in the sprite. -/
def dot (s : SpriteSlot) (column : Nat) : UInt8 :=
  atBit (s.planeHigh.toNat.testBit (7 - column)) 1 |||
    atBit (s.planeLow.toNat.testBit (7 - column)) 0

theorem pixel_iterate (h₁ : x.toNat ≤ n) (h₂ : n ≤ x.toNat + 7) :
    (advance^[n] (s.place x)).pixel = s.dot (n - x.toNat) := by
  obtain ⟨k, rfl⟩ := Nat.exists_eq_add_of_le h₁
  have hk : k < 8 := by omega
  rw [iterate_shown (Nat.le_of_lt hk), Nat.add_sub_cancel_left]
  unfold pixel dot
  rw [topBit_shifted _ hk, topBit_shifted _ hk]

theorem isOpaque_iterate (hn : n < 256) :
    (advance^[n] (s.place x)).isOpaque =
      (decide (x.toNat ≤ n) && decide (n ≤ x.toNat + 7) && s.dot (n - x.toNat) != 0) := by
  unfold isOpaque
  rcases Nat.lt_or_ge n x.toNat with hlt | hge
  · rw [iterate_waiting hlt, decide_eq_false (Nat.not_le.mpr hlt)]
    rfl
  · by_cases hle : n ≤ x.toNat + 7
    · have hactive : 0 < (advance^[n] (s.place x)).active := by
        obtain ⟨k, rfl⟩ := Nat.exists_eq_add_of_le hge
        have hk : k ≤ 7 := by omega
        have hpos : ∀ k ≤ 7, 0 < UInt8.ofNat (8 - k) := by decide
        rw [iterate_shown (Nat.le_succ_of_le hk)]
        exact hpos k hk
      rw [pixel_iterate hge hle, decide_eq_true hactive, decide_eq_true hge, decide_eq_true hle]
      rfl
    · obtain ⟨k, rfl⟩ := Nat.exists_eq_add_of_le (Nat.lt_of_not_le hle)
      rw [(iterate_over (by omega)).1, decide_eq_false hle, Bool.and_false]
      rfl

end SpriteSlot

/-! ### The pixels of a sprite -/

/-- The address of the first bit plane of row `row` of a sprite's tile. -/
def Control.spriteAddress (c : Control) (tile row : Nat) : Nat :=
  if c.tallSprites then 0x1000 * (tile % 2) + 16 * (tile / 2 * 2 + row / 8) + row % 8
  else (if c.spriteTable then 0x1000 else 0) + 16 * tile + row

namespace Memory

/-- The value of a pixel of a sprite, by its row and its column from the sprite's upper left
corner. -/
def spriteDot (cart : κ) (c : Control) (e : SpriteEntry) (row column : Nat) : UInt8 :=
  let row := if e.flippedY then c.spriteHeight - 1 - row else row
  let bit := if e.flippedX then column else 7 - column
  let address := c.spriteAddress e.tile.toNat row
  let low := Cartridge.readPattern cart (.ofNat address)
  let high := Cartridge.readPattern cart (.ofNat (address + 8))
  atBit (high.toNat.testBit bit) 1 ||| atBit (low.toNat.testBit bit) 0

/-- The entry's value in column `x` of line `y`. -/
def entryDot (m : Memory) (cart : κ) (c : Control) (i : Fin 64) (x y : Nat) : UInt8 :=
  let e := m.sprite i
  spriteDot cart c e (y - 1 - e.y.toNat) (x - e.x.toNat)

/-- The entry has an opaque pixel in column `x` of line `y`, on which it shows. -/
def entryOpaque (m : Memory) (cart : κ) (c : Control) (x y : Nat) (i : Fin 64) : Bool :=
  let e := m.sprite i
  decide (e.x.toNat ≤ x) && decide (x ≤ e.x.toNat + 7) && m.entryDot cart c i x y != 0

end Memory

namespace SpriteUnit

variable {c : Control} {line : Nat} {i : Fin 64}

theorem spriteHeight_le (c : Control) : c.spriteHeight ≤ 16 := by
  unfold Control.spriteHeight
  split <;> decide

theorem row_lt (h : reaches m c line i = true) :
    line - (m.sprite i).y.toNat < c.spriteHeight := by
  simp only [reaches, inRange, Bool.and_eq_true, decide_eq_true_eq] at h
  omega

theorem tileRow_note (h : reaches m c line i = true) :
    (tileRow (note m c line i)).toNat =
      if (m.sprite i).flippedY then c.spriteHeight - 1 - (line - (m.sprite i).y.toNat)
      else line - (m.sprite i).y.toNat := by
  have hrow := row_lt h
  have hheight := spriteHeight_le c
  unfold note tileRow
  dsimp only
  generalize line - (m.sprite i).y.toNat = row at hrow
  have hrowNat : (UInt8.ofNat row).toNat = row :=
    UInt8.toNat_ofNat_of_lt' (by show row < 256; omega)
  have hheightNat : (UInt8.ofNat c.spriteHeight).toNat = c.spriteHeight :=
    UInt8.toNat_ofNat_of_lt' (Nat.lt_of_le_of_lt hheight (by decide))
  have hone : (UInt8.ofNat c.spriteHeight - 1).toNat = c.spriteHeight - 1 := by
    have hle : 1 ≤ UInt8.ofNat c.spriteHeight := by
      rw [UInt8.le_iff_toNat_le, hheightNat]
      exact Nat.one_le_of_lt hrow
    rw [UInt8.toNat_sub_of_le _ _ hle, hheightNat]
    rfl
  split
  · rw [UInt8.toNat_sub_of_le _ _ (UInt8.le_iff_toNat_le.mpr (by rw [hone, hrowNat]; omega)), hone,
      hrowNat]
  · exact hrowNat

theorem tileRow_lt (h : reaches m c line i = true) :
    (tileRow (note m c line i)).toNat < c.spriteHeight := by
  have hlt := row_lt h
  rw [tileRow_note h]
  split <;> omega

/-- The parts of an address do not overlap. -/
theorem toNat_or_or {base tile row : UInt16} {a b : Nat} (hbase : base.toNat = 0x1000 * a)
    (htile : tile.toNat = 16 * b) (hb : b < 256) (hrow : row.toNat < 16) :
    (base ||| tile ||| row).toNat = 0x1000 * a + 16 * b + row.toNat := by
  have hlow : 2 ^ 4 * b ||| row.toNat = 2 ^ 4 * b + row.toNat :=
    (Nat.two_pow_add_eq_or_of_lt hrow b).symm
  have hlt : 2 ^ 4 * b + row.toNat < 2 ^ 12 := by omega
  rw [UInt16.toNat_or, UInt16.toNat_or, hbase, htile, Nat.or_assoc]
  calc 2 ^ 12 * a ||| (2 ^ 4 * b ||| row.toNat)
      = 2 ^ 12 * a ||| (2 ^ 4 * b + row.toNat) := by rw [hlow]
    _ = 2 ^ 12 * a + (2 ^ 4 * b + row.toNat) := (Nat.two_pow_add_eq_or_of_lt hlt a).symm
    _ = 0x1000 * a + 16 * b + row.toNat := by omega

theorem tallAddress (tile : UInt8) {row : UInt8} (hrow : row.toNat < 16) :
    let lower : UInt16 := if 8 ≤ row.toUInt16 then 1 else 0
    ((tile.toUInt16 &&& 1) <<< 12 ||| ((tile.toUInt16 &&& 0xFE) + lower) <<< 4 |||
        row.toUInt16 &&& 7).toNat =
      0x1000 * (tile.toNat % 2) + 16 * (tile.toNat / 2 * 2 + row.toNat / 8) + row.toNat % 8 := by
  intro lower
  have htile := tile.toNat_lt
  have hbase : ((tile.toUInt16 &&& 1) <<< 12).toNat = 0x1000 * (tile.toNat % 2) := by
    have hall : ∀ tile : UInt8,
        ((tile.toUInt16 &&& 1) <<< 12).toNat = 0x1000 * (tile.toNat % 2) := by decide +kernel
    exact hall tile
  have heven : (tile.toUInt16 &&& 0xFE).toNat = tile.toNat / 2 * 2 := by
    have hall : ∀ tile : UInt8, (tile.toUInt16 &&& 0xFE).toNat = tile.toNat / 2 * 2 := by
      decide +kernel
    exact hall tile
  have hlower : lower.toNat = row.toNat / 8 := by
    have hall : ∀ b : Fin 16, (if 8 ≤ (UInt8.ofNat b).toUInt16 then 1 else 0 : UInt16).toNat =
        b.val / 8 := by decide
    have hrowNat : UInt8.ofNat row.toNat = row := UInt8.ofNat_toNat
    simpa only [hrowNat] using hall ⟨row.toNat, hrow⟩
  have hseven : (row.toUInt16 &&& 7).toNat = row.toNat % 8 := by
    rw [UInt16.toNat_and, UInt8.toNat_toUInt16]
    exact Nat.and_two_pow_sub_one_eq_mod row.toNat 3
  have hnumber : ((tile.toUInt16 &&& 0xFE) + lower).toNat = tile.toNat / 2 * 2 + row.toNat / 8 := by
    rw [UInt16.toNat_add, heven, hlower]
    omega
  have hshift := toNat_shiftLeft_four (w := (tile.toUInt16 &&& 0xFE) + lower) (by omega)
  rw [hnumber] at hshift
  rw [toNat_or_or hbase hshift (by omega) (by omega), hseven]

theorem smallAddress (c : Control) (tile : UInt8) {row : UInt8} (hrow : row.toNat < 8) :
    (c.spriteBase ||| tile.toUInt16 <<< 4 ||| row.toUInt16).toNat =
      (if c.spriteTable then 0x1000 else 0) + 16 * tile.toNat + row.toNat := by
  have htile := tile.toNat_lt
  have hbase : c.spriteBase.toNat = 0x1000 * c.spriteTable.toNat := by
    unfold Control.spriteBase
    cases c.spriteTable <;> rfl
  have hsmall : row.toUInt16.toNat < 16 := Nat.lt_trans hrow (by decide)
  have hshift := toNat_shiftLeft_four (w := tile.toUInt16) (Nat.lt_trans htile (by decide))
  rw [UInt8.toNat_toUInt16] at hshift
  rw [toNat_or_or hbase hshift htile hsmall, UInt8.toNat_toUInt16]
  cases c.spriteTable <;> rfl

theorem planeAddress_taken (h : reaches m c line i = true) :
    ((taken (note m c line i)).planeAddress c).toNat =
      c.spriteAddress (m.sprite i).tile.toNat (tileRow (note m c line i)).toNat := by
  have hrow := tileRow_lt h
  unfold planeAddress Control.spriteAddress
  unfold Control.spriteHeight at hrow
  by_cases htall : c.tallSprites = true
  · have hheight : (taken (note m c line i)).fetchHeight = 16 := by
      unfold taken note Control.spriteHeight
      rw [if_pos htall]
      rfl
    rw [if_pos htall] at hrow ⊢
    rw [if_pos hheight]
    exact tallAddress _ hrow
  · have hheight : (taken (note m c line i)).fetchHeight ≠ 16 := by
      unfold taken note Control.spriteHeight
      rw [if_neg htall]
      show (UInt8.ofNat 8).toUInt16 ≠ 16
      decide
    rw [if_neg htall] at hrow ⊢
    rw [if_neg hheight]
    exact smallAddress c _ hrow

theorem spriteAddress_lt {tile row : Nat} (htile : tile < 256) (hrow : row < c.spriteHeight) :
    c.spriteAddress tile row + 8 < 0x2000 := by
  unfold Control.spriteAddress
  unfold Control.spriteHeight at hrow
  split at hrow
  · rename_i htall
    rw [if_pos htall]
    omega
  · rename_i htall
    rw [if_neg htall]
    split <;> omega

theorem testBit_orient (u : SpriteUnit) (byte : UInt8) {k : Nat} (hk : k < 8) :
    (u.orient byte).toNat.testBit (7 - k) =
      byte.toNat.testBit (if u.current.flippedX then k else 7 - k) := by
  unfold orient
  split
  · exact SpriteSlot.testBit_reverseBits byte hk
  · rfl

/-- The pixels of a slot that a sprite has filled are the sprite's. -/
theorem dot_fill (cart : κ) (h : reaches m r.control line i = true) {k : Nat} (hk : k < 8) :
    (fill cart m r (note m r.control line i)).dot k =
      Memory.spriteDot cart r.control (m.sprite i) (line - (m.sprite i).y.toNat) k := by
  have hlt := spriteAddress_lt (c := r.control) (m.sprite i).tile.toNat_lt (tileRow_lt h)
  obtain ⟨hlow, hhigh⟩ := m.read_planes cart r.mask.colourMask (planeAddress_taken h) hlt
  unfold SpriteSlot.dot fill
  simp only [testBit_orient _ _ hk, hlow, hhigh, tileRow_note h]
  rfl

/-! ### The slot that shows -/

theorem reaches_of_candidate {y : Nat} (h : i ∈ candidates m c y) :
    reaches m c (y - 1) i = true := by
  cases y with
  | zero => exact absurd h List.not_mem_nil
  | succ y => exact (List.mem_filter.mp (List.mem_of_mem_take h)).2

theorem fill_place (line : Nat) (i : Fin 64) :
    (fill cart m r (note m r.control line i)).place (m.sprite i).x =
      fill cart m r (note m r.control line i) := rfl

variable {u : SpriteUnit} {x y : Nat} {k : Fin 8}

theorem Drawing.isOpaque_slot (h : Drawing cart m r (y - 1) (candidates m r.control y) x u)
    (hx : x < width) (hi : (candidates m r.control y)[k.val]? = some i) :
    (u.slot k).isOpaque = m.entryOpaque cart r.control x y i := by
  have hreaches := reaches_of_candidate (List.mem_of_getElem? hi)
  rw [h.slot k i hi, ← fill_place, SpriteSlot.isOpaque_iterate hx]
  unfold Memory.entryOpaque Memory.entryDot
  by_cases hcolumn : (m.sprite i).x.toNat ≤ x ∧ x ≤ (m.sprite i).x.toNat + 7
  · have hdot := dot_fill cart hreaches (k := x - (m.sprite i).x.toNat) (by omega)
    dsimp only
    rw [← hdot]
  · have hhidden : (decide ((m.sprite i).x.toNat ≤ x) && decide (x ≤ (m.sprite i).x.toNat + 7)) =
        false := by
      rw [← Bool.decide_and]
      exact decide_eq_false hcolumn
    dsimp only
    rw [hhidden, Bool.false_and, Bool.false_and]

theorem Drawing.slot_shows (h : Drawing cart m r (y - 1) (candidates m r.control y) x u)
    (hi : (candidates m r.control y)[k.val]? = some i)
    (hsolid : m.entryOpaque cart r.control x y i = true) :
    (u.slot k).pixel = m.entryDot cart r.control i x y ∧
      (u.slot k).palette = (m.sprite i).palette ∧ (u.slot k).behind = (m.sprite i).behind := by
  have hreaches := reaches_of_candidate (List.mem_of_getElem? hi)
  simp only [Memory.entryOpaque, Bool.and_eq_true, decide_eq_true_eq] at hsolid
  obtain ⟨⟨h₁, h₂⟩, -⟩ := hsolid
  obtain ⟨n, hn⟩ := Nat.exists_eq_add_of_le h₁
  rw [h.slot k i hi, ← fill_place]
  refine ⟨?_, ?_, ?_⟩
  · rw [SpriteSlot.pixel_iterate h₁ h₂]
    exact dot_fill cart hreaches (by omega)
  · rw [hn, SpriteSlot.iterate_shown (by omega)]
    rfl
  · rw [hn, SpriteSlot.iterate_shown (by omega)]
    rfl

/-- The first opaque slot is that of the first candidate that is opaque there. -/
theorem Drawing.front_some (h : Drawing cart m r (y - 1) (candidates m r.control y) x u)
    (hx : x < width) (hfront : u.front = some k) :
    ∃ i, (candidates m r.control y)[k.val]? = some i ∧
      (candidates m r.control y).find? (m.entryOpaque cart r.control x y) = some i := by
  unfold front at hfront
  split at hfront
  · exact nomatch hfront
  · obtain ⟨hk, n, hn, hnk, hbefore⟩ := List.find?_eq_some_iff_getElem.mp hfront
    rw [List.getElem_finRange] at hnk
    obtain rfl : n = k.val := congrArg Fin.val hnk
    rw [Bool.and_eq_true, decide_eq_true_eq, h.count] at hk
    have hi : (candidates m r.control y)[k.val]? = some (candidates m r.control y)[k.val] :=
      List.getElem?_eq_getElem hk.1
    refine ⟨_, hi, List.find?_eq_some_iff_getElem.mpr ⟨?_, k, hk.1, rfl, ?_⟩⟩
    · rw [← h.isOpaque_slot hx hi]
      exact hk.2
    · intro j hj
      have hlt : j < (candidates m r.control y).length := Nat.lt_trans hj hk.1
      have hj8 : j < 8 := Nat.lt_trans hj k.isLt
      have hjBefore := hbefore j hj
      rw [List.getElem_finRange, h.count] at hjBefore
      rw [← h.isOpaque_slot (k := ⟨j, hj8⟩) hx (List.getElem?_eq_getElem hlt)]
      simpa [hlt] using hjBefore

theorem Drawing.front_none (h : Drawing cart m r (y - 1) (candidates m r.control y) x u)
    (hx : x < width) (hfront : u.front = none) :
    (candidates m r.control y).find? (m.entryOpaque cart r.control x y) = none := by
  rw [List.find?_eq_none]
  intro i hi
  obtain ⟨n, hn, rfl⟩ := List.getElem_of_mem hi
  have hn8 : n < 8 := Nat.lt_of_lt_of_le hn (length_candidates m r.control y)
  rw [← h.isOpaque_slot (k := ⟨n, hn8⟩) hx (List.getElem?_eq_getElem hn)]
  unfold front at hfront
  rw [h.count, if_neg (Nat.ne_of_gt (Nat.lt_of_le_of_lt (Nat.zero_le n) hn)),
    List.find?_eq_none] at hfront
  intro hsolid
  apply hfront ⟨n, hn8⟩ (List.mem_finRange _)
  rw [hsolid, Bool.and_true]
  exact decide_eq_true hn

end SpriteUnit

/-! ### The picture -/

namespace Memory

/-- The sprite that shows in column `x` of line `y`: the first candidate that is opaque there. -/
def shownSprite (m : Memory) (cart : κ) (r : Registers) (x y : Nat) : Option (Fin 64) :=
  if r.mask.spritesAt x then
    (SpriteUnit.candidates m r.control y).find? (m.entryOpaque cart r.control x y)
  else none

/-- The colour of a pixel with the given background: that of the sprite that shows there, unless
the sprite stands behind an opaque background. -/
def composedColour (m : Memory) (cart : κ) (r : Registers) (x y : Nat)
    (background : UInt8 × UInt8) : UInt8 :=
  match m.shownSprite cart r x y with
  | some i =>
    if (m.sprite i).behind = false ∨ background.1 = 0 then
      m.colour r.mask.colourMask (4 + (m.sprite i).palette) (m.entryDot cart r.control i x y)
    else m.colour r.mask.colourMask background.2 background.1
  | none => m.colour r.mask.colourMask background.2 background.1

end Memory

namespace Scan

variable [PixelSink σ] {s : Scan σ}

/-- The background's value and palette as they are taken from the shift registers for a pixel. -/
def sampledDot (cart : κ) (m : Memory) (s : Scan σ) (x y : Nat) : UInt8 × UInt8 :=
  (s.before cart m x y).raster.moved.backgroundDot (s.before cart m x y).regs

theorem before_drawing (cart : κ) (m : Memory) (hs : s.raster.beam = .start) {x y : Nat}
    (hx : x < width) (hy : y < height) :
    SpriteUnit.Drawing cart m s.regs (y - 1) (SpriteUnit.candidates m s.regs.control y) x
      (s.before cart m x y).raster.sprites :=
  have ht : x ≤ 340 := Nat.le_of_lt (Nat.lt_trans hx (by decide))
  (after_spritesOnRow cart m hs (y + 1) hy ht).drawing y rfl (Nat.le_of_lt hx)

theorem shownSprite_of_some (hs : s.raster.beam = .start) {x y : Nat} (hx : x < width)
    (hy : y < height) {k : Fin 8}
    (h : (s.before cart m x y).raster.moved.spriteDot (s.before cart m x y).regs = some k) :
    ∃ i, (SpriteUnit.candidates m s.regs.control y)[k.val]? = some i ∧
      m.shownSprite cart s.regs x y = some i := by
  have hfollows := before_follows cart m hs x y
  rw [Raster.spriteDot, before_column cart m hs hx, hfollows.mask] at h
  unfold Memory.shownSprite
  split at h
  · rename_i hshow
    rw [if_pos hshow]
    exact (before_drawing cart m hs hx hy).front_some hx h
  · exact nomatch h

theorem shownSprite_of_none (hs : s.raster.beam = .start) {x y : Nat} (hx : x < width)
    (hy : y < height)
    (h : (s.before cart m x y).raster.moved.spriteDot (s.before cart m x y).regs = none) :
    m.shownSprite cart s.regs x y = none := by
  have hfollows := before_follows cart m hs x y
  rw [Raster.spriteDot, before_column cart m hs hx, hfollows.mask] at h
  unfold Memory.shownSprite
  split at h
  · rename_i hshow
    rw [if_pos hshow]
    exact (before_drawing cart m hs hx hy).front_none hx h
  · rename_i hhidden
    rw [if_neg hhidden]

theorem colourAt_composed (hs : s.raster.beam = .start) {x y : Nat} (hx : x < width)
    (hy : y < height) :
    s.colourAt cart m x y = m.composedColour cart s.regs x y (s.sampledDot cart m x y) := by
  have hfollows := before_follows cart m hs x y
  unfold colourAt Raster.colour Memory.composedColour sampledDot
  rw [hfollows.mask]
  cases hdot : (s.before cart m x y).raster.moved.spriteDot (s.before cart m x y).regs with
  | none => rw [shownSprite_of_none hs hx hy hdot]
  | some k =>
    obtain ⟨i, hi, hshown⟩ := shownSprite_of_some hs hx hy hdot
    have hsolid : m.entryOpaque cart s.regs.control x y i = true := by
      unfold Memory.shownSprite at hshown
      split at hshown
      · exact List.find?_some hshown
      · exact nomatch hshown
    obtain ⟨hpixel, hpalette, hbehind⟩ := (before_drawing cart m hs hx hy).slot_shows hi hsolid
    replace hpixel : ((s.before cart m x y).raster.moved.sprites.slot k).pixel = _ := hpixel
    replace hpalette : ((s.before cart m x y).raster.moved.sprites.slot k).palette = _ := hpalette
    replace hbehind : ((s.before cart m x y).raster.moved.sprites.slot k).behind = _ := hbehind
    rw [hshown]
    simp only [hpixel, hpalette, hbehind]
    generalize (s.before cart m x y).raster.moved.backgroundDot _ = background
    have hfront : ((m.sprite i).behind && background.1 != 0) = true ↔
        ¬ ((m.sprite i).behind = false ∨ background.1 = 0) := by
      cases (m.sprite i).behind <;> simp
    by_cases h : (m.sprite i).behind = false ∨ background.1 = 0
    · rw [if_pos h, if_neg fun hb => hfront.mp hb h]
    · rw [if_neg h, if_pos (hfront.mpr h)]

/-- **The picture of the sprites.** -/
theorem runUntil_sprites (cart : κ) (m : Memory) (raster : Raster) (r : Registers) (sink : σ) :
    let s : Scan σ := ⟨raster.beginFrame, r, sink⟩
    (s.runUntil cart m (ticksPerLine * 241)).sink =
      sendPicture (fun x y => m.composedColour cart r x y (s.sampledDot cart m x y)) sink := by
  intro s
  rw [runUntil_sink rfl]
  apply sendPicture_congr
  intro x hx y hy
  exact colourAt_composed rfl hx hy

end Scan

end Famicom.Picture
