import Famicom.Cartridge.Interface
import Famicom.Word

/-!
# The memory of the picture unit

Four banks of nametables, the palette and the sprite list.  In the unit's address space of 14 bits
the pattern tables of the cartridge come first, then the nametables as the layout places them,
which repeat up to `0x3EFF`, then the palette, which repeats every 32 bytes.  The first colours of
the four sprite palettes are the same cells as those of the background palettes.

Every access to the nametables goes through a map of their banks, which is worked out once, when a
layout is set (`Memory.setLayout`), and kept beside it.
-/

namespace Famicom.Picture

/-- A sprite: the line above its first one, its tile, its attributes, its first column. -/
structure SpriteEntry where
  y : UInt8 := 0xFF
  tile : UInt8 := 0xFF
  attributes : UInt8 := 0xFF
  x : UInt8 := 0xFF
  deriving DecidableEq, Repr, Inhabited

namespace SpriteEntry

/-- The sprite is shown upside down. -/
def flippedY (e : SpriteEntry) : Bool := bit e.attributes 7

/-- The sprite is shown with its sides exchanged. -/
def flippedX (e : SpriteEntry) : Bool := bit e.attributes 6

/-- Opaque pixels of the background stand before the sprite. -/
def behind (e : SpriteEntry) : Bool := bit e.attributes 5

/-- Which of the four sprite palettes colours it. -/
def palette (e : SpriteEntry) : UInt8 := e.attributes &&& 3

end SpriteEntry

/-- Nametables, palette and sprite list, and the layout of the nametables. -/
structure Memory where
  nametables : Vector UInt8 0x1000
  palette : Vector UInt8 0x20
  sprites : Vector UInt8 0x100
  layout : Layout
  /-- the banks behind the logical nametables -/
  map : Vector (Fin 4) 4
  /-- the map is never out of date -/
  map_eq : map = layout.map

namespace Memory

/-- Empty memory under a layout. -/
def empty (layout : Layout) : Memory :=
  ⟨.replicate _ 0, .replicate _ 0, .replicate _ 0, layout, layout.map, rfl⟩

/-- Changes the layout of the nametables; their contents stay. -/
def setLayout (m : Memory) (layout : Layout) : Memory :=
  { m with layout, map := layout.map, map_eq := rfl }

/-- A layout that is set again changes nothing. -/
theorem setLayout_self (m : Memory) : m.setLayout m.layout = m := by
  obtain ⟨nametables, palette, sprites, layout, map, rfl⟩ := m
  rfl

/-! ### Cells -/

/-- The cell of a logical nametable, given the banks behind them. -/
def tableCell (map : Vector (Fin 4) 4) (table : Fin 4) (offset : Fin 0x400) : Fin 0x1000 :=
  ⟨0x400 * (map.get table).val + offset.val, by omega⟩

/-- The logical nametable and the offset in it that an address names. -/
def tablePlace (address : UInt16) : Fin 4 × Fin 0x400 :=
  (⟨address.toNat / 0x400 % 4, Nat.mod_lt _ (by decide)⟩,
   ⟨address.toNat % 0x400, Nat.mod_lt _ (by decide)⟩)

def addressCell (map : Vector (Fin 4) 4) (address : UInt16) : Fin 0x1000 :=
  tableCell map (tablePlace address).1 (tablePlace address).2

def paletteCell (address : UInt16) : Fin 0x20 :=
  let i := address.toNat % 0x20
  ⟨if i % 4 = 0 then i % 0x10 else i, by split <;> omega⟩

/-- An address within 14 bits. -/
def wrapAddress (address : UInt16) : UInt16 := address &&& 0x3FFF

theorem toNat_wrapAddress (address : UInt16) :
    (wrapAddress address).toNat = address.toNat % 0x4000 := by
  rw [wrapAddress, UInt16.toNat_and]
  exact Nat.and_two_pow_sub_one_eq_mod _ 14

/-! ### Access -/

def tableByte (m : Memory) (table : Fin 4) (offset : Fin 0x400) : UInt8 :=
  m.nametables[tableCell m.map table offset]

/-- The byte at an address; `colours` are the bits of a colour that get through. -/
def read {κ : Type} [Cartridge κ] (m : Memory) (cart : κ) (colours : UInt8) (address : UInt16) :
    UInt8 :=
  let address := wrapAddress address
  if address < 0x2000 then Cartridge.readPattern cart address
  else if address < 0x3F00 then m.nametables[addressCell m.map address]
  else m.palette[paletteCell address] &&& colours

/-- Writes the nametables or the palette; the pattern tables are the cartridge's. -/
def write (m : Memory) (address : UInt16) (byte : UInt8) : Memory :=
  let address := wrapAddress address
  if address < 0x2000 then m
  else if address < 0x3F00 then
    let cell := addressCell m.map address
    { m with nametables := m.nametables.set cell byte }
  else { m with palette := m.palette.set (paletteCell address) (byte &&& 0x3F) }

/-- What a write does to the cartridge. -/
def writeCartridge {κ : Type} [Cartridge κ] (cart : κ) (address : UInt16) (byte : UInt8) : κ :=
  let address := wrapAddress address
  if address < 0x2000 then Cartridge.writePattern cart address byte else cart

/-- The colour of a pixel value in a palette; the value zero is the backdrop in all of them. -/
def colour (m : Memory) (colours : UInt8) (palette pixel : UInt8) : UInt8 :=
  let i := if pixel = 0 then 0 else palette.toNat * 4 ||| pixel.toNat
  m.palette[i % 0x20] &&& colours

def spriteByte (m : Memory) (i : UInt8) : UInt8 :=
  have : i.toNat < 0x100 := i.toNat_lt
  m.sprites[i.toNat]

def setSpriteByte (m : Memory) (i : UInt8) (byte : UInt8) : Memory :=
  { m with sprites := m.sprites.set i.toNat byte i.toNat_lt }

/-- Fills the whole sprite list byte by byte from a source, starting at `first` and wrapping
around. -/
def fillSprites (m : Memory) (first : UInt8) (source : UInt8 → UInt8) : Memory :=
  (List.range 0x100).foldl (fun m i => m.setSpriteByte (first + .ofNat i) (source (.ofNat i))) m

/-- The sprite list after the first `n` bytes of a source. -/
def filled (m : Memory) (first : UInt8) (source : UInt8 → UInt8) (n : Nat) : Vector UInt8 0x100 :=
  .ofFn fun k =>
    if (UInt8.ofFin k - first).toNat < n then source (.ofFin k - first) else m.sprites.get k

theorem filled_succ (m : Memory) (first : UInt8) (source : UInt8 → UInt8) {n : Nat}
    (hn : n < 0x100) :
    (m.filled first source n).set (first + .ofNat n).toNat (source (.ofNat n)) (UInt8.toNat_lt _) =
      m.filled first source (n + 1) := by
  refine Vector.ext fun k hk => ?_
  have hfirst := first.toNat_lt
  have hcount : (UInt8.ofNat n).toNat = n := UInt8.toNat_ofNat_of_lt' hn
  have htarget : (first + .ofNat n).toNat = (first.toNat + n) % 256 := by
    rw [UInt8.toNat_add, hcount]
  have hplace : (UInt8.ofFin ⟨k, hk⟩ - first).toNat = (256 - first.toNat + k) % 256 :=
    UInt8.toNat_sub _ _
  simp only [filled, Vector.getElem_set, Vector.getElem_ofFn, htarget, hplace]
  -- the `n`-th byte belongs in the one cell that lies `n` places on from the first
  by_cases hcell : (first.toNat + n) % 256 = k
  · have hsource : UInt8.ofFin ⟨k, hk⟩ - first = .ofNat n := by
      apply UInt8.toNat_inj.mp
      rw [hplace, hcount]
      omega
    rw [if_pos hcell, if_pos (by omega), hsource]
  · rw [if_neg hcell]
    exact ite_congr (propext (by omega)) (fun _ => rfl) fun _ => rfl

theorem foldl_setSpriteByte (m : Memory) (first : UInt8) (source : UInt8 → UInt8) {n : Nat}
    (hn : n ≤ 0x100) :
    (List.range n).foldl (fun m i => m.setSpriteByte (first + .ofNat i) (source (.ofNat i))) m =
      { m with sprites := m.filled first source n } := by
  induction n with
  | zero =>
    have hnone : m.filled first source 0 = m.sprites := Vector.ext fun k hk => by
      rw [filled, Vector.getElem_ofFn, if_neg (Nat.not_lt_zero _)]
      rfl
    rw [List.range_zero, List.foldl_nil, hnone]
  | succ n ih =>
    rw [List.range_succ, List.foldl_append, ih (Nat.le_of_succ_le hn), List.foldl_cons,
      List.foldl_nil, ← m.filled_succ first source hn]
    rfl

theorem fillSprites_eq (m : Memory) (first : UInt8) (source : UInt8 → UInt8) :
    m.fillSprites first source =
      { m with sprites := .ofFn fun k => source (.ofFin k - first) } := by
  have hturns := m.foldl_setSpriteByte first source (n := 0x100) (Nat.le_refl _)
  rw [fillSprites]
  refine hturns.trans ?_
  have hall : m.filled first source 0x100 = .ofFn fun k => source (.ofFin k - first) := by
    refine Vector.ext fun k hk => ?_
    rw [filled, Vector.getElem_ofFn, Vector.getElem_ofFn, if_pos (UInt8.toNat_lt _)]
  rw [hall]

-- a comparison that goes into the loop would unroll all its turns
attribute [irreducible] fillSprites

def sprite (m : Memory) (i : Fin 64) : SpriteEntry where
  y := m.sprites[4 * i.val]
  tile := m.sprites[4 * i.val + 1]
  attributes := m.sprites[4 * i.val + 2]
  x := m.sprites[4 * i.val + 3]

end Memory

end Famicom.Picture
