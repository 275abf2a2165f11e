import Famicom.Proofs.Console.Layouts

/-!
# The memory of the picture unit is a store of cells

Many addresses name one byte: an address counts modulo `0x4000`, the nametables repeat, several of
them may share a bank, the palette repeats, and the first colours of the sprite palettes are those
of the background.  `Cell.ofAddress` says which byte an address names, without looking at how the
unit finds it.  Seen that way the memory is a plain store: whatever is written, and however the
layout is changed in between, an address reads as the byte last written to the cell that it names
now (`MemoryUse.run_stores`).

The pattern tables are the cartridge's.  The unit passes the writes to their cells on to it, and
what becomes of them there is the cartridge's business.
-/

namespace Famicom.Picture

/-! ### Cells -/

/-- A byte that an address of the picture unit can name. -/
inductive Cell where
  /-- in the cartridge's pattern tables, by its address there -/
  | pattern (i : Fin 0x2000)
  /-- in the four banks of nametables -/
  | table (i : Fin 0x1000)
  /-- in the palette -/
  | colour (i : Fin 0x20)
  deriving DecidableEq, Repr

namespace Cell

/-- The byte of the banks behind a byte of the four logical nametables, which follow one another and
then repeat. -/
def tableAt (layout : Layout) (n : Nat) : Fin 0x1000 :=
  ⟨layout.cell (n % 0x1000 / 0x400) (n % 0x400), layout.cell_lt _ _⟩

/-- The first colours of the sprite palettes are those of the background palettes. -/
def sharedColour (i : Fin 0x20) : Fin 0x20 :=
  match i.val with
  | 0x10 => ⟨0x00, by decide⟩
  | 0x14 => ⟨0x04, by decide⟩
  | 0x18 => ⟨0x08, by decide⟩
  | 0x1C => ⟨0x0C, by decide⟩
  | _ => i

def ofAddress (layout : Layout) (address : UInt16) : Cell :=
  let n := address.toNat % 0x4000
  if h : n < 0x2000 then pattern ⟨n, h⟩
  else if n < 0x3F00 then table (tableAt layout (n - 0x2000))
  else colour (sharedColour ⟨n % 0x20, Nat.mod_lt _ (by decide)⟩)

/-- The cell is the unit's own, and not the cartridge's. -/
def Own (cell : Cell) : Prop := ∀ i, cell ≠ pattern i

theorem own_table (i : Fin 0x1000) : (table i).Own := fun _ => nofun

theorem own_colour (i : Fin 0x20) : (colour i).Own := fun _ => nofun

/-- What is kept of a byte that is written to a cell: a colour has six bits. -/
def kept : Cell → UInt8 → UInt8
  | colour _, byte => byte &&& 0x3F
  | _, byte => byte

/-- What shows of a byte in a cell: without colours, only the brightness of one. -/
def seen (mask : Mask) : Cell → UInt8 → UInt8
  | colour _, byte => byte &&& if mask.greyscale then 0x30 else 0x3F
  | _, byte => byte

def latest (cell : Cell) (writes : List (Cell × UInt8)) : Option UInt8 := writes.reverse.lookup cell

/-- What a byte written to a cell does to the cartridge. -/
def feed {κ : Type} [Cartridge κ] (cart : κ) : Cell × UInt8 → κ
  | (pattern i, byte) => Cartridge.writePattern cart (.ofNat i) byte
  | _ => cart

theorem seen_kept (mask : Mask) (cell : Cell) (byte : UInt8) :
    cell.seen mask (cell.kept byte) = cell.seen mask byte := by
  cases cell with
  | colour i =>
    show byte &&& 0x3F &&& (if mask.greyscale then 0x30 else 0x3F) = byte &&& _
    rw [UInt8.and_assoc]
    split <;> rfl
  | _ => rfl

theorem latest_cons (cell : Cell) (w : Cell × UInt8) (writes : List (Cell × UInt8)) :
    cell.latest (w :: writes) =
      (cell.latest writes).or (if w.1 = cell then some w.2 else none) := by
  obtain ⟨cell', byte⟩ := w
  rw [latest, List.reverse_cons, List.lookup_append]
  simp only [List.lookup_cons, List.lookup_nil, latest]
  by_cases h : cell' = cell
  · subst h
    simp
  · have hne : (cell == cell') = false := beq_false_of_ne (Ne.symm h)
    rw [hne, if_neg h]

end Cell

/-! ### The unit finds the cells -/

namespace Memory

variable {κ : Type} [Cartridge κ]

theorem paletteCell_eq (address : UInt16) :
    paletteCell (wrapAddress address) =
      Cell.sharedColour ⟨address.toNat % 0x4000 % 0x20, Nat.mod_lt _ (by decide)⟩ := by
  have hall : ∀ i : Fin 0x20,
      (if i.val % 4 = 0 then i.val % 0x10 else i.val) = (Cell.sharedColour i).val := by decide
  rw [← Fin.val_inj, ← hall, paletteCell]
  simp only [toNat_wrapAddress]

theorem addressCell_eq (layout : Layout) {address : UInt16}
    (h : 0x2000 ≤ address.toNat % 0x4000) :
    addressCell layout.map (wrapAddress address) =
      Cell.tableAt layout (address.toNat % 0x4000 - 0x2000) := by
  rw [← Fin.val_inj, addressCell_val]
  show layout.cell _ _ = layout.cell _ _
  unfold Layout.cell
  have htable : address.toNat / 1024 % 4 =
      (address.toNat % 0x4000 - 0x2000) % 0x1000 / 0x400 % 4 := by omega
  have hoffset : address.toNat % 1024 = (address.toNat % 0x4000 - 0x2000) % 0x400 % 1024 := by omega
  rw [htable, hoffset]

/-- The three ranges in which an address may lie, and the cell that it names in each. -/
theorem ofAddress_cases (layout : Layout) (address : UInt16) :
    (∃ i : Fin 0x2000, wrapAddress address < 0x2000 ∧ wrapAddress address = .ofNat i ∧
        Cell.ofAddress layout address = .pattern i) ∨
      (¬ wrapAddress address < 0x2000 ∧ wrapAddress address < 0x3F00 ∧
        Cell.ofAddress layout address = .table (addressCell layout.map (wrapAddress address))) ∨
      (¬ wrapAddress address < 0x2000 ∧ ¬ wrapAddress address < 0x3F00 ∧
        Cell.ofAddress layout address = .colour (paletteCell (wrapAddress address))) := by
  have hwrap := toNat_wrapAddress address
  have hlow : wrapAddress address < 0x2000 ↔ address.toNat % 0x4000 < 0x2000 := by
    rw [UInt16.lt_iff_toNat_lt, hwrap]
    rfl
  have hhigh : wrapAddress address < 0x3F00 ↔ address.toNat % 0x4000 < 0x3F00 := by
    rw [UInt16.lt_iff_toNat_lt, hwrap]
    rfl
  have hnumber : wrapAddress address = .ofNat (address.toNat % 0x4000) := by
    rw [← hwrap, UInt16.ofNat_toNat]
  rw [hlow, hhigh]
  unfold Cell.ofAddress
  by_cases hpattern : address.toNat % 0x4000 < 0x2000
  · exact .inl ⟨⟨_, hpattern⟩, hpattern, hnumber, dif_pos hpattern⟩
  · refine .inr ?_
    simp only [dif_neg hpattern]
    by_cases htable : address.toNat % 0x4000 < 0x3F00
    · refine .inl ⟨hpattern, htable, ?_⟩
      rw [if_pos htable, addressCell_eq layout (Nat.not_lt.mp hpattern)]
    · refine .inr ⟨hpattern, htable, ?_⟩
      rw [if_neg htable, paletteCell_eq]

def byteIn (m : Memory) (cart : κ) : Cell → UInt8
  | .pattern i => Cartridge.readPattern cart (.ofNat i)
  | .table i => m.nametables[i]
  | .colour i => m.palette[i]

theorem read_eq_seen (m : Memory) (cart : κ) (mask : Mask) (address : UInt16) :
    m.read cart mask.colourMask address =
      (Cell.ofAddress m.layout address).seen mask
        (m.byteIn cart (Cell.ofAddress m.layout address)) := by
  unfold read
  dsimp only
  rcases ofAddress_cases m.layout address with
    ⟨i, hpattern, hi, hcell⟩ | ⟨hpattern, htable, hcell⟩ | ⟨hpattern, htable, hcell⟩
  · rw [if_pos hpattern, hcell, hi]
    rfl
  · rw [← m.map_eq] at hcell
    rw [if_neg hpattern, if_pos htable, hcell]
    rfl
  · rw [if_neg hpattern, if_neg htable, hcell]
    rfl

theorem write_eq_set (m : Memory) (address : UInt16) (byte : UInt8) :
    m.write address byte =
      match Cell.ofAddress m.layout address with
      | .pattern _ => m
      | .table i => { m with nametables := m.nametables.set i byte }
      | .colour i => { m with palette := m.palette.set i (byte &&& 0x3F) } := by
  unfold write
  dsimp only
  rcases ofAddress_cases m.layout address with
    ⟨i, hpattern, hi, hcell⟩ | ⟨hpattern, htable, hcell⟩ | ⟨hpattern, htable, hcell⟩
  · rw [if_pos hpattern, hcell]
  · rw [← m.map_eq] at hcell
    rw [if_neg hpattern, if_pos htable, hcell]
  · rw [if_neg hpattern, if_neg htable, hcell]

theorem writeCartridge_eq_feed (layout : Layout) (cart : κ) (address : UInt16) (byte : UInt8) :
    writeCartridge cart address byte = Cell.feed cart (Cell.ofAddress layout address, byte) := by
  unfold writeCartridge
  dsimp only
  rcases ofAddress_cases layout address with
    ⟨i, hpattern, hi, hcell⟩ | ⟨hpattern, -, hcell⟩ | ⟨hpattern, -, hcell⟩
  · rw [if_pos hpattern, hcell, hi]
    rfl
  · rw [if_neg hpattern, hcell]
    rfl
  · rw [if_neg hpattern, hcell]
    rfl

/-- A cell of the unit's own holds the byte just written to it, and else what it held. -/
theorem byteIn_write {cell : Cell} (hcell : cell.Own) (m : Memory) (cart cart' : κ)
    (address : UInt16) (byte : UInt8) :
    (m.write address byte).byteIn cart' cell =
      if Cell.ofAddress m.layout address = cell then cell.kept byte else m.byteIn cart cell := by
  rw [write_eq_set]
  cases cell with
  | pattern i => exact absurd rfl (hcell i)
  | table i =>
    cases Cell.ofAddress m.layout address with
    | table j => simp [byteIn, Cell.kept, Vector.getElem_set, Fin.ext_iff]
    | _ => rfl
  | colour i =>
    cases Cell.ofAddress m.layout address with
    | colour j => simp [byteIn, Cell.kept, Vector.getElem_set, Fin.ext_iff]
    | _ => rfl

theorem colour_eq_read (m : Memory) (cart : κ) (colours : UInt8) (palette : Fin 8)
    (pixel : Fin 4) :
    m.colour colours (.ofNat palette) (.ofNat pixel) =
      m.read cart colours (if pixel = 0 then 0x3F00 else .ofNat (0x3F00 + 4 * palette + pixel)) := by
  have hrange : ∀ (palette : Fin 8) (pixel : Fin 4),
      let address : UInt16 := if pixel = 0 then 0x3F00 else .ofNat (0x3F00 + 4 * palette + pixel)
      let i := if UInt8.ofNat pixel = 0 then 0
        else (UInt8.ofNat palette).toNat * 4 ||| (UInt8.ofNat pixel).toNat
      ¬ wrapAddress address < 0x2000 ∧ ¬ wrapAddress address < 0x3F00 ∧
        i % 0x20 = (paletteCell (wrapAddress address)).val := by
    decide
  obtain ⟨hpattern, htable, hindex⟩ := hrange palette pixel
  simp only [read, colour, if_neg hpattern, if_neg htable, hindex]
  rfl

end Memory

/-! ### Uses of the memory -/

/-- What can be done to the memory of the picture unit. -/
inductive MemoryUse where
  | write (address : UInt16) (byte : UInt8)
  | setLayout (layout : Layout)
  deriving DecidableEq, Repr

/-- The unit and its cartridge differ from what they were in one cell at most. -/
structure SameBut {κ : Type} (cell : Cell) (s s' : Video × κ) : Prop where
  tables (i : Fin 0x1000) (h : cell ≠ .table i) :
    s'.1.memory.nametables[i] = s.1.memory.nametables[i]
  palette (i : Fin 0x20) (h : cell ≠ .colour i) : s'.1.memory.palette[i] = s.1.memory.palette[i]
  sprites : s'.1.memory.sprites = s.1.memory.sprites
  layout : s'.1.memory.layout = s.1.memory.layout
  regs : s'.1.regs = s.1.regs
  cartridge (h : cell.Own) : s'.2 = s.2

namespace MemoryUse

variable {κ : Type} [Cartridge κ] {s : Video × κ}

def apply (s : Video × κ) : MemoryUse → Video × κ
  | write address byte =>
    ({ s.1 with memory := s.1.memory.write address byte },
      Memory.writeCartridge s.2 address byte)
  | setLayout layout => (s.1.setLayout layout, s.2)

def run (s : Video × κ) (l : List MemoryUse) : Video × κ := l.foldl apply s

def layoutAfter (layout : Layout) : List MemoryUse → Layout
  | [] => layout
  | write _ _ :: l => layoutAfter layout l
  | setLayout layout' :: l => layoutAfter layout' l

/-- The bytes written, each with the cell that its address named at the time. -/
def written (layout : Layout) : List MemoryUse → List (Cell × UInt8)
  | [] => []
  | write address byte :: l => (Cell.ofAddress layout address, byte) :: written layout l
  | setLayout layout' :: l => written layout' l

/-- What a cell holds after some uses: the byte last written to it, or else what it held before.  A
cell of the pattern tables holds what the cartridge makes of the writes to them. -/
def held (s : Video × κ) (l : List MemoryUse) : Cell → UInt8
  | .pattern i =>
    Cartridge.readPattern ((written s.1.memory.layout l).foldl Cell.feed s.2) (.ofNat i)
  | cell =>
    (cell.latest (written s.1.memory.layout l)).getD (s.1.memory.byteIn s.2 cell)

theorem apply_write_memory (s : Video × κ) (address : UInt16) (byte : UInt8) :
    (apply s (.write address byte)).1.memory = s.1.memory.write address byte := rfl

theorem run_cons (s : Video × κ) (t : MemoryUse) (l : List MemoryUse) :
    run s (t :: l) = run (apply s t) l := rfl

theorem sameBut_write (s : Video × κ) (address : UInt16) (byte : UInt8) :
    SameBut (Cell.ofAddress s.1.memory.layout address) s (apply s (.write address byte)) := by
  have hown {cell : Cell} (hcell : cell.Own)
      (h : Cell.ofAddress s.1.memory.layout address ≠ cell) :
      (s.1.memory.write address byte).byteIn s.2 cell = s.1.memory.byteIn s.2 cell := by
    rw [Memory.byteIn_write hcell _ s.2, if_neg h]
  constructor
  case tables => exact fun i h => hown (Cell.own_table i) h
  case palette => exact fun i h => hown (Cell.own_colour i) h
  case sprites =>
    rw [apply_write_memory, Memory.write_eq_set]
    split <;> rfl
  case layout => exact Memory.write_layout ..
  case regs => rfl
  case cartridge =>
    intro h
    show Memory.writeCartridge s.2 address byte = s.2
    rw [Memory.writeCartridge_eq_feed s.1.memory.layout]
    cases hcell : Cell.ofAddress s.1.memory.layout address with
    | pattern i => exact absurd hcell (h i)
    | _ => rfl

theorem run_layout (s : Video × κ) (l : List MemoryUse) :
    (run s l).1.memory.layout = layoutAfter s.1.memory.layout l := by
  induction l generalizing s with
  | nil => rfl
  | cons t l ih =>
    rw [run_cons, ih]
    cases t with
    | write address byte => rw [(sameBut_write s address byte).layout, layoutAfter]
    | setLayout layout => rfl

theorem run_regs (s : Video × κ) (l : List MemoryUse) : (run s l).1.regs = s.1.regs := by
  induction l generalizing s with
  | nil => rfl
  | cons t l ih =>
    rw [run_cons, ih]
    cases t <;> rfl

/-- The cartridge sees the writes to the pattern tables, and nothing else. -/
theorem run_cartridge (s : Video × κ) (l : List MemoryUse) :
    (run s l).2 = (written s.1.memory.layout l).foldl Cell.feed s.2 := by
  induction l generalizing s with
  | nil => rfl
  | cons t l ih =>
    rw [run_cons, ih]
    cases t with
    | write address byte =>
      rw [(sameBut_write s address byte).layout, written, List.foldl_cons,
        ← Memory.writeCartridge_eq_feed]
      rfl
    | setLayout layout => rfl

theorem seen_run {cell : Cell} (hcell : cell.Own) (mask : Mask) (s : Video × κ)
    (l : List MemoryUse) :
    cell.seen mask ((run s l).1.memory.byteIn (run s l).2 cell) =
      cell.seen mask ((cell.latest (written s.1.memory.layout l)).getD
        (s.1.memory.byteIn s.2 cell)) := by
  induction l generalizing s with
  | nil => rfl
  | cons t l ih =>
    rw [run_cons, ih]
    cases t with
    | write address byte =>
      rw [(sameBut_write s address byte).layout, written, Cell.latest_cons, apply_write_memory,
        Memory.byteIn_write hcell _ s.2]
      cases cell.latest (written s.1.memory.layout l) with
      | some byte' => rfl
      | none =>
        dsimp only [Option.none_or]
        split
        · exact Cell.seen_kept mask cell byte
        · rfl
    | setLayout layout =>
      cases cell with
      | pattern i => exact absurd rfl (hcell i)
      | _ => rfl

theorem readMemory_run (s : Video × κ) (l : List MemoryUse) (address : UInt16) :
    (run s l).1.readMemory (run s l).2 address =
      (Cell.ofAddress (layoutAfter s.1.memory.layout l) address).seen s.1.regs.mask
        (held s l (Cell.ofAddress (layoutAfter s.1.memory.layout l) address)) := by
  rw [Video.readMemory, Memory.read_eq_seen, run_layout, run_regs]
  cases hcell : Cell.ofAddress (layoutAfter s.1.memory.layout l) address with
  | pattern i => rw [held, ← run_cartridge]; rfl
  | table i => exact seen_run (Cell.own_table i) ..
  | colour i => exact seen_run (Cell.own_colour i) ..

/-- **The memory of the picture unit is a store.**  After any writes, with the layout changed in
between them as often as one likes, every address reads as what was last written to the cell that it
names now; of a colour six bits show, or two without colours.  The cartridge has seen the writes to
the pattern tables and nothing else.  A further write changes no cell but its own.  And the colour
that the drawing takes for a pixel is what its place in the palette reads as. -/
theorem run_stores (u : Video) (cart : κ) (l : List MemoryUse) :
    let s := run (u, cart) l
    let layout := layoutAfter u.memory.layout l
    (∀ address, s.1.readMemory s.2 address =
        (Cell.ofAddress layout address).seen u.regs.mask
          (held (u, cart) l (Cell.ofAddress layout address))) ∧
      s.2 = (written u.memory.layout l).foldl Cell.feed cart ∧
      (∀ address byte,
        SameBut (Cell.ofAddress layout address) s (apply s (.write address byte))) ∧
      ∀ (palette : Fin 8) (pixel : Fin 4),
        s.1.colour (.ofNat palette) (.ofNat pixel) =
          s.1.readMemory s.2
            (if pixel = 0 then 0x3F00 else .ofNat (0x3F00 + 4 * palette + pixel)) := by
  intro s layout
  refine ⟨readMemory_run (u, cart) l, run_cartridge (u, cart) l, ?_, ?_⟩
  · intro address byte
    have hlayout : s.1.memory.layout = layout := run_layout (u, cart) l
    rw [← hlayout]
    exact sameBut_write s address byte
  · intro palette pixel
    exact s.1.memory.colour_eq_read s.2 s.1.regs.mask.colourMask palette pixel

end MemoryUse

end Famicom.Picture
