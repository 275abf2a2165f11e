import Famicom.Proofs.Picture.Bounds

/-!
# The picture unit with every bound checked

The unit looks cells up by numbers that it has computed, shifts by amounts that it has computed, and
adds and subtracts bytes and words without expecting them to run over.  Here its work is written a
second time with a check at each of these places: an index lies within its vector, a shift is
shorter than the word, a sum or difference fits its type, a digit of an address that is moved on
stays a digit, and bit planes are fetched from the pattern tables.  Where a check fails the result
is `none`.  What has nothing to check is left as it is, and so are the sums that are meant to wrap
around.

Every checked function gives what the plain one gives, where the bounds hold that it needs; most
need none, and the tick as a whole needs those of `Scan.Bounded` (`Scan.step?_eq`).
-/

namespace Famicom

/-! ### Arithmetic and vectors -/

def add8? (a b : UInt8) : Option UInt8 :=
  if a.toNat + b.toNat < UInt8.size then some (a + b) else none

def sub8? (a b : UInt8) : Option UInt8 := if b ≤ a then some (a - b) else none

def add16? (a b : UInt16) : Option UInt16 :=
  if a.toNat + b.toNat < UInt16.size then some (a + b) else none

def sub16? (a b : UInt16) : Option UInt16 := if b ≤ a then some (a - b) else none

def sub? (a b : Nat) : Option Nat := if b ≤ a then some (a - b) else none

/-- The next digit, unless this one is the last. -/
def next? {n : Nat} (x : Fin n) : Option (Fin n) :=
  if h : x.val + 1 < n then some ⟨x.val + 1, h⟩ else none

/-- A byte moved down by less than its bits. -/
def shiftRight8? (a amount : UInt8) : Option UInt8 :=
  if amount < 8 then some (a >>> amount) else none

/-- A word moved up by less than its bits. -/
def shiftLeft16? (w : UInt16) (amount : UInt8) : Option UInt16 :=
  if amount < 16 then some (w <<< amount.toUInt16) else none

def set? {α : Type} {n : Nat} (cells : Vector α n) (i : Nat) (a : α) : Option (Vector α n) :=
  if h : i < n then some (cells.set i a h) else none

theorem set?_eq {α : Type} {n i : Nat} (cells : Vector α n) (a : α) (h : i < n) :
    set? cells i a = some (cells.set i a h) := dif_pos h

theorem next?_eq {n : Nat} {x : Fin (n + 1)} (h : x.val < n) : next? x = some (x + 1) := by
  have hone : (x + 1).val = x.val + 1 := Fin.val_add_one_of_lt (Fin.lt_def.mpr h)
  rw [next?, dif_pos (Nat.succ_lt_succ h)]
  exact congrArg some (Fin.ext hone.symm)

/-- A loop whose every turn succeeds, given what it holds after each. -/
theorem foldlM_range_eq {α : Type} {f : α → Nat → Option α} (g : Nat → α) {n : Nat}
    (h : ∀ i < n, f (g i) i = some (g (i + 1))) : (List.range n).foldlM f (g 0) = some (g n) := by
  induction n with
  | zero => rfl
  | succ n ih =>
    rw [List.range_succ, List.foldlM_append, ih fun i hi => h i (Nat.lt_succ_of_lt hi)]
    show (f (g n) n >>= fun a => some a) = _
    rw [h n (Nat.lt_succ_self n)]
    rfl

namespace Picture

variable {κ σ : Type} [Cartridge κ]

/-! ### Memory -/

namespace Memory

/-- The byte in a cell of a logical nametable; the bank behind the table is looked up. -/
def tableByte? (m : Memory) (table offset : Nat) : Option UInt8 := do
  let bank ← m.map[table]?
  m.nametables[0x400 * bank.val + offset]?

def setTableByte? (m : Memory) (table offset : Nat) (byte : UInt8) : Option Memory := do
  let bank ← m.map[table]?
  let nametables ← set? m.nametables (0x400 * bank.val + offset) byte
  return { m with nametables }

def paletteIndex? (address : UInt16) : Option Nat :=
  let i := address.toNat % 0x20
  if i % 4 = 0 ∧ 0x10 ≤ i then sub? i 0x10 else some i

def read? (m : Memory) (cart : κ) (colours : UInt8) (address : UInt16) : Option UInt8 :=
  let address := wrapAddress address
  if address < 0x2000 then some (Cartridge.readPattern cart address)
  else if address < 0x3F00 then
    m.tableByte? (address.toNat / 0x400 % 4) (address.toNat % 0x400)
  else do
    let i ← paletteIndex? address
    let byte ← m.palette[i]?
    return byte &&& colours

/-- A read that is meant for the pattern tables. -/
def readPattern? (m : Memory) (cart : κ) (colours : UInt8) (address : UInt16) : Option UInt8 :=
  if address < 0x2000 then m.read? cart colours address else none

/-- A read of the second bit plane, given the address of the first. -/
def readUpper? (m : Memory) (cart : κ) (colours : UInt8) (address : UInt16) : Option UInt8 := do
  let upper ← add16? address 8
  m.readPattern? cart colours upper

def write? (m : Memory) (address : UInt16) (byte : UInt8) : Option Memory :=
  let address := wrapAddress address
  if address < 0x2000 then some m
  else if address < 0x3F00 then
    m.setTableByte? (address.toNat / 0x400 % 4) (address.toNat % 0x400) byte
  else do
    let i ← paletteIndex? address
    let palette ← set? m.palette i (byte &&& 0x3F)
    return { m with palette }

def colour? (m : Memory) (colours : UInt8) (palette pixel : UInt8) : Option UInt8 := do
  let i := if pixel = 0 then 0 else palette.toNat * 4 ||| pixel.toNat
  let byte ← m.palette[i % 0x20]?
  return byte &&& colours

def spriteByte? (m : Memory) (i : UInt8) : Option UInt8 := m.sprites[i.toNat]?

def setSpriteByte? (m : Memory) (i : UInt8) (byte : UInt8) : Option Memory := do
  let sprites ← set? m.sprites i.toNat byte
  return { m with sprites }

def fillSprites? (m : Memory) (first : UInt8) (page : Vector UInt8 0x100) : Option Memory := do
  let sprites ← (List.range 0x100).foldlM (fun sprites i => do
    let byte ← page[i]?
    set? sprites ((first.toNat + i) % 0x100) byte) m.sprites
  return { m with sprites }

def sprite? (m : Memory) (i : Nat) : Option SpriteEntry := do
  let y ← m.sprites[4 * i]?
  let tile ← m.sprites[4 * i + 1]?
  let attributes ← m.sprites[4 * i + 2]?
  let x ← m.sprites[4 * i + 3]?
  return { y, tile, attributes, x }

theorem tableByte?_eq (m : Memory) (table : Fin 4) (offset : Fin 0x400) :
    m.tableByte? table offset = some (m.tableByte table offset) := by
  rw [tableByte?, Vector.getElem?_eq_getElem table.isLt]
  exact Vector.getElem?_eq_getElem (tableCell m.map table offset).isLt

theorem setTableByte?_eq (m : Memory) (table : Fin 4) (offset : Fin 0x400) (byte : UInt8) :
    m.setTableByte? table offset byte =
      (set? m.nametables (tableCell m.map table offset).val byte).map
        fun nametables => { m with nametables } := by
  rw [setTableByte?, Vector.getElem?_eq_getElem table.isLt, Option.map_eq_bind]
  rfl

theorem paletteIndex?_eq (address : UInt16) :
    paletteIndex? address = some (paletteCell address).val := by
  unfold paletteIndex? paletteCell sub?
  dsimp only
  split_ifs <;> first | omega | exact congrArg some (by omega)

theorem read?_eq (m : Memory) (cart : κ) (colours : UInt8) (address : UInt16) :
    m.read? cart colours address = some (m.read cart colours address) := by
  unfold read? read
  dsimp only
  split
  · rfl
  · split
    · exact m.tableByte?_eq (tablePlace (wrapAddress address)).1
        (tablePlace (wrapAddress address)).2
    · rw [paletteIndex?_eq]
      show (m.palette[(paletteCell (wrapAddress address)).val]? >>= _) = _
      rw [Vector.getElem?_eq_getElem (paletteCell (wrapAddress address)).isLt]
      rfl

theorem readPattern?_eq (m : Memory) (cart : κ) (colours : UInt8) {address : UInt16}
    (h : address.toNat < 0x2000) :
    m.readPattern? cart colours address = some (m.read cart colours address) := by
  rw [readPattern?, if_pos (UInt16.lt_iff_toNat_lt.mpr h), read?_eq]

theorem readUpper?_eq (m : Memory) (cart : κ) (colours : UInt8) {address : UInt16}
    (h : address.toNat + 8 < 0x2000) :
    m.readUpper? cart colours address = some (m.read cart colours (address + 8)) := by
  have hsize : address.toNat + (8 : UInt16).toNat < UInt16.size := Nat.lt_trans h (by decide)
  have hlt : (address + 8).toNat < 0x2000 := by
    rw [UInt16.toNat_add, Nat.mod_eq_of_lt hsize]
    exact h
  rw [readUpper?, add16?, if_pos hsize]
  exact m.readPattern?_eq cart colours hlt

theorem write?_eq (m : Memory) (address : UInt16) (byte : UInt8) :
    m.write? address byte = some (m.write address byte) := by
  unfold write? write
  dsimp only
  split
  · rfl
  · split
    · refine (m.setTableByte?_eq (tablePlace (wrapAddress address)).1
        (tablePlace (wrapAddress address)).2 byte).trans ?_
      show (set? m.nametables (addressCell m.map (wrapAddress address)).val byte).map _ = _
      rw [set?_eq]
      rfl
    · rw [paletteIndex?_eq]
      show (set? m.palette (paletteCell (wrapAddress address)).val _ >>= _) = _
      rw [set?_eq _ _ (paletteCell (wrapAddress address)).isLt]
      rfl

theorem colour?_eq (m : Memory) (colours palette pixel : UInt8) :
    m.colour? colours palette pixel = some (m.colour colours palette pixel) := by
  unfold colour? colour
  dsimp only
  rw [Vector.getElem?_eq_getElem (Nat.mod_lt _ (by decide))]
  rfl

theorem spriteByte?_eq (m : Memory) (i : UInt8) : m.spriteByte? i = some (m.spriteByte i) :=
  Vector.getElem?_eq_getElem i.toNat_lt

theorem setSpriteByte?_eq (m : Memory) (i byte : UInt8) :
    m.setSpriteByte? i byte = some (m.setSpriteByte i byte) := by
  rw [setSpriteByte?, set?_eq _ _ i.toNat_lt]
  rfl

theorem sprite?_eq (m : Memory) (i : Fin 64) : m.sprite? i = some (m.sprite i) := by
  unfold sprite?
  rw [Vector.getElem?_eq_getElem (by omega), Vector.getElem?_eq_getElem (by omega),
    Vector.getElem?_eq_getElem (by omega), Vector.getElem?_eq_getElem (by omega)]
  rfl

theorem fillSprites?_eq (m : Memory) (first : UInt8) (source : UInt8 → UInt8) :
    m.fillSprites? first (.ofFn fun k => source (.ofFin k)) =
      some (m.fillSprites first source) := by
  let after (n : Nat) : Memory :=
    (List.range n).foldl (fun m i => m.setSpriteByte (first + .ofNat i) (source (.ofNat i))) m
  have hsprites : (after 0x100).sprites = (m.fillSprites first source).sprites := by
    rw [fillSprites]
  have hturn (n : Nat) (hn : n < 0x100) :
      set? (after n).sprites ((first.toNat + n) % 0x100) (source (.ofFin ⟨n, hn⟩)) =
        some (after (n + 1)).sprites := by
    have hcount : (UInt8.ofNat n).toNat = n := UInt8.toNat_ofNat_of_lt' hn
    have hplace : (first + .ofNat n).toNat = (first.toNat + n) % 0x100 := by
      rw [UInt8.toNat_add, hcount]
    have hsource : UInt8.ofFin ⟨n, hn⟩ = .ofNat n := UInt8.toNat_inj.mp hcount.symm
    show _ = some ((List.range (n + 1)).foldl _ m).sprites
    rw [List.range_succ, List.foldl_append, ← hplace, hsource]
    exact set?_eq _ _ (UInt8.toNat_lt _)
  unfold fillSprites?
  rw [show m.sprites = (after 0).sprites from rfl, foldlM_range_eq fun n => (after n).sprites]
  · rw [hsprites, fillSprites_eq]
    rfl
  · intro n hn
    rw [Vector.getElem?_eq_getElem hn, Vector.getElem_ofFn]
    exact hturn n hn

end Memory

/-! ### Scrolling -/

namespace ScrollAddress

/-- After the last column the position wraps around; before it the column is counted on. -/
def right? (v : ScrollAddress) : Option ScrollAddress :=
  if v.coarseX.val = 31 then some v.right
  else do
    let coarseX ← next? v.coarseX
    return { v with coarseX }

/-- The line within the tile is counted on, and after its last one the row of tiles, unless that
wraps around too. -/
def down? (v : ScrollAddress) : Option ScrollAddress :=
  if v.fineY.val = 7 then
    if v.coarseY.val = 29 ∨ v.coarseY.val = 31 then some v.down
    else do
      let coarseY ← next? v.coarseY
      return { v.down with coarseY }
  else do
    let fineY ← next? v.fineY
    return { v with fineY }

theorem right?_eq (v : ScrollAddress) : v.right? = some v.right := by
  unfold right?
  split
  · rfl
  · rename_i hlast
    rw [next?_eq (by omega), right, if_neg (by omega)]
    rfl

theorem down?_eq (v : ScrollAddress) : v.down? = some v.down := by
  unfold down?
  split
  · rename_i hline
    split
    · rfl
    · rename_i hrow
      rw [next?_eq (by omega), down, if_pos (Fin.ext hline)]
      dsimp only
      rw [if_neg (by omega), if_neg (by omega)]
      rfl
  · rename_i hline
    rw [next?_eq (by omega), down, if_neg (by omega)]
    rfl

end ScrollAddress

/-! ### Accesses to the registers -/

namespace Video

def peekRegister? (u : Video) (cart : κ) : RegisterName → Option UInt8
  | .spriteData => u.memory.spriteByte? u.regs.spriteIndex
  | .data =>
    if inPalette u.regs.v.word then
      u.memory.read? cart u.regs.mask.colourMask u.regs.v.word
    else some u.regs.readBuffer
  | name => some (u.peekRegister cart name)

/-- Where a data read fills the buffer from. -/
def underneath? (address : UInt16) : Option UInt16 :=
  if inPalette address then sub16? address 0x1000 else some address

def afterRead? (u : Video) (cart : κ) : RegisterName → Option Video
  | .data => do
    let address ← underneath? u.regs.v.word
    let fetched ← u.memory.read? cart u.regs.mask.colourMask address
    return { u with regs := { u.regs with readBuffer := fetched }.advance }
  | name => some (u.afterRead cart name)

def readRegister? (u : Video) (cart : κ) (name : RegisterName) : Option (UInt8 × Video) := do
  let byte ← u.peekRegister? cart name
  let after ← u.afterRead? cart name
  return (byte, after)

def writeRegister? (u : Video) (name : RegisterName) (byte : UInt8) : Option Video :=
  let noted := { u.regs with lastWritten := byte }
  match name with
  | .spriteData => do
    let memory ← u.memory.setSpriteByte? u.regs.spriteIndex byte
    return { memory, regs := { noted with spriteIndex := u.regs.spriteIndex + 1 } }
  | .data => do
    let memory ← u.memory.write? u.regs.v.word byte
    return { memory, regs := noted.advance }
  | name => some (u.writeRegister name byte)

def transfer? (u : Video) (page : Vector UInt8 0x100) : Option Video := do
  let memory ← u.memory.fillSprites? u.regs.spriteIndex page
  return { u with memory }

/-- Below an address in the palette there is room for the nametables. -/
theorem le_of_inPalette {address : UInt16} (h : inPalette address = true) : 0x1000 ≤ address := by
  rw [inPalette, decide_eq_true_eq, UInt16.le_iff_toNat_le, Memory.wrapAddress,
    UInt16.toNat_and] at h
  rw [UInt16.le_iff_toNat_le]
  have hle : address.toNat &&& (0x3FFF : UInt16).toNat ≤ address.toNat := Nat.and_le_left
  exact Nat.le_trans (by decide) (Nat.le_trans h hle)

theorem underneath?_eq (address : UInt16) :
    underneath? address = some (if inPalette address then address - 0x1000 else address) := by
  unfold underneath?
  split
  · rename_i h
    exact if_pos (le_of_inPalette h)
  · rfl

theorem peekRegister?_eq (u : Video) (cart : κ) (name : RegisterName) :
    u.peekRegister? cart name = some (u.peekRegister cart name) := by
  cases name with
  | spriteData => exact u.memory.spriteByte?_eq _
  | data =>
    unfold peekRegister? peekRegister readMemory
    dsimp only
    rw [Memory.read?_eq]
    split <;> rfl
  | _ => rfl

theorem afterRead?_eq (u : Video) (cart : κ) (name : RegisterName) :
    u.afterRead? cart name = some (u.afterRead cart name) := by
  cases name with
  | data =>
    unfold afterRead? afterRead readMemory
    dsimp only
    rw [underneath?_eq]
    show (u.memory.read? cart _ _ >>= _) = _
    rw [Memory.read?_eq]
    rfl
  | _ => rfl

theorem readRegister?_eq (u : Video) (cart : κ) (name : RegisterName) :
    u.readRegister? cart name = some (u.readRegister cart name) := by
  rw [readRegister?, peekRegister?_eq, afterRead?_eq, readRegister_eq]
  rfl

theorem writeRegister?_eq (u : Video) (name : RegisterName) (byte : UInt8) :
    u.writeRegister? name byte = some (u.writeRegister name byte) := by
  cases name with
  | spriteData =>
    unfold writeRegister?
    dsimp only
    rw [Memory.setSpriteByte?_eq]
    rfl
  | data =>
    unfold writeRegister?
    dsimp only
    rw [Memory.write?_eq]
    rfl
  | _ => rfl

theorem transfer?_eq (u : Video) (source : UInt8 → UInt8) :
    u.transfer? (.ofFn fun k => source (.ofFin k)) = some (u.transfer source) := by
  rw [transfer?, Memory.fillSprites?_eq]
  rfl

end Video

end Picture

end Famicom
