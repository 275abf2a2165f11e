import Famicom.Proofs.Picture.Checked

/-!
# Ticks with every bound checked

The work of a tick, with the checks of `Famicom.Proofs.Picture.Checked` wherever it looks up,
shifts, adds or subtracts.  The background needs no bounds to pass its checks, the sprites need
those of `SpriteUnit.Bounded`, the pixel needs the bound on the column within a tile besides, and
the tick as a whole (`Scan.step?_eq`) those of `Scan.Bounded`.

Lines and ticks are natural numbers here, so of the arithmetic on them the differences are checked.
-/

namespace Famicom.Picture

variable {κ σ : Type} [Cartridge κ] {cart : κ} {m : Memory}

/-! ### The background -/

namespace Background

def fetchTile? (b : Background) (cart : κ) (m : Memory) (r : Registers) : Option Background := do
  let tile ← m.read? cart r.mask.colourMask r.v.tileAddress
  return { b with tile }

def fetchPalette? (b : Background) (cart : κ) (m : Memory) (r : Registers) : Option Background := do
  let byte ← m.read? cart r.mask.colourMask r.v.attributeAddress
  let palettes ← shiftRight8? byte r.v.attributeShift
  return { b with palette := palettes &&& 3 }

def planeAddress? (b : Background) (r : Registers) : Option UInt16 := do
  let tile ← add16? r.control.backgroundBase (b.tile.toUInt16 <<< 4)
  add16? tile (.ofNat r.v.fineY.val)

def fetchLow? (b : Background) (cart : κ) (m : Memory) (r : Registers) : Option Background := do
  let address ← b.planeAddress? r
  let planeLow ← m.readPattern? cart r.mask.colourMask address
  return { b with planeLow }

def fetchHigh? (b : Background) (cart : κ) (m : Memory) (r : Registers) : Option Background := do
  let address ← b.planeAddress? r
  let planeHigh ← m.readUpper? cart r.mask.colourMask address
  return { b with planeHigh }

def fetch? (cart : κ) (m : Memory) (r : Registers) (tick : Nat) (b : Background) :
    Option Background :=
  match tick % 8 with
  | 2 => b.fetchTile? cart m r
  | 4 => b.fetchPalette? cart m r
  | 6 => b.fetchLow? cart m r
  | 0 => do
    let b ← b.fetchHigh? cart m r
    return if tick = 328 then b.loadFirst else b.load
  | _ => some b

def tap? (register : UInt16) (fineX : UInt8) : Option UInt8 := do
  let moved ← shiftLeft16? register fineX
  return (moved >>> 15).toUInt8

def pixel? (b : Background) (fineX : UInt8) : Option UInt8 := do
  let high ← tap? b.patternHigh fineX
  let low ← tap? b.patternLow fineX
  return high <<< 1 ||| low

def pixelPalette? (b : Background) (fineX : UInt8) : Option UInt8 := do
  let high ← tap? b.paletteHigh fineX
  let low ← tap? b.paletteLow fineX
  return high <<< 1 ||| low

variable (b : Background) (r : Registers)

theorem fetchTile?_eq : b.fetchTile? cart m r = some (b.fetchTile cart m r) := by
  rw [fetchTile?, Memory.read?_eq]
  rfl

theorem fetchPalette?_eq : b.fetchPalette? cart m r = some (b.fetchPalette cart m r) := by
  rw [fetchPalette?, Memory.read?_eq]
  show (shiftRight8? _ r.v.attributeShift >>= _) = _
  rw [shiftRight8?, if_pos r.v.attributeShift_lt]
  rfl

theorem planeAddress?_eq : b.planeAddress? r = some (b.planeAddress r) := by
  have htile : b.tile.toNat < 256 := b.tile.toNat_lt
  have hfine := r.v.fineY.isLt
  have hbase : r.control.backgroundBase.toNat ≤ 0x1000 := by
    unfold Control.backgroundBase
    split <;> decide
  have hshift : (b.tile.toUInt16 <<< 4).toNat = 16 * b.tile.toNat :=
    toNat_shiftLeft_four (Nat.lt_trans htile (by decide))
  have hsum : (r.control.backgroundBase + b.tile.toUInt16 <<< 4).toNat =
      r.control.backgroundBase.toNat + 16 * b.tile.toNat := by
    rw [UInt16.toNat_add, hshift]
    omega
  rw [planeAddress?, add16?, if_pos (by rw [hshift]; show _ < 65536; omega)]
  refine if_pos ?_
  rw [hsum, UInt16.toNat_ofNat']
  show _ < 65536
  omega

theorem fetchLow?_eq : b.fetchLow? cart m r = some (b.fetchLow cart m r) := by
  have hlt := Nat.lt_of_add_right_lt (b.planeAddress_lt r)
  simp only [fetchLow?, planeAddress?_eq, m.readPattern?_eq cart _ hlt, Option.bind_eq_bind,
    Option.bind_some]
  rfl

theorem fetchHigh?_eq : b.fetchHigh? cart m r = some (b.fetchHigh cart m r) := by
  simp only [fetchHigh?, planeAddress?_eq, m.readUpper?_eq cart _ (b.planeAddress_lt r),
    Option.bind_eq_bind, Option.bind_some]
  rfl

theorem fetch?_eq (tick : Nat) : fetch? cart m r tick b = some (fetch cart m r tick b) := by
  unfold fetch? fetch
  generalize tick % 8 = phase
  match phase with
  | 2 => exact b.fetchTile?_eq r
  | 4 => exact b.fetchPalette?_eq r
  | 6 => exact b.fetchLow?_eq r
  | 0 =>
    dsimp only
    rw [fetchHigh?_eq]
    rfl
  | 1 | 3 | 5 | _ + 7 => rfl

variable {r}

theorem tap?_eq (register : UInt16) (h : r.fineX ≤ 7) :
    tap? register r.fineX = some (tap register r.fineX) := by
  have hlt : r.fineX < 16 := UInt8.lt_of_le_of_lt h (by decide)
  rw [tap?, shiftLeft16?, if_pos hlt]
  rfl

theorem pixel?_eq (h : r.fineX ≤ 7) : b.pixel? r.fineX = some (b.pixel r.fineX) := by
  rw [pixel?, tap?_eq _ h, tap?_eq _ h]
  rfl

theorem pixelPalette?_eq (h : r.fineX ≤ 7) :
    b.pixelPalette? r.fineX = some (b.pixelPalette r.fineX) := by
  rw [pixelPalette?, tap?_eq _ h, tap?_eq _ h]
  rfl

end Background

/-! ### The sprites -/

def SpriteSlot.advance? (s : SpriteSlot) : Option SpriteSlot :=
  if 0 < s.active then do
    let active ← sub8? s.active 1
    return { s with active, planeLow := s.planeLow <<< 1, planeHigh := s.planeHigh <<< 1 }
  else some s.advance

theorem SpriteSlot.advance?_eq (s : SpriteSlot) : s.advance? = some s.advance := by
  unfold advance?
  split
  · rename_i hactive
    have hone : 1 ≤ s.active := hactive
    rw [sub8?, if_pos hone, advance, if_pos hactive]
    rfl
  · rfl

/-- Every byte with its bits in the opposite order. -/
def reversed : Vector UInt8 0x100 := .ofFn fun k => reverseBits (.ofFin k)

namespace SpriteUnit

def tileRow? (s : FoundSprite) : Option UInt8 :=
  if s.entry.flippedY then do
    let last ← sub8? s.height 1
    sub8? last s.row
  else some s.row

def takeUp? (u : SpriteUnit) (slot : Nat) : Option SpriteUnit := do
  let s ← u.found[slot]?
  let row ← tileRow? s
  return { u with
    current := s.entry
    fetchHeight := s.height.toUInt16
    fetchRow := row.toUInt16 }

def planeAddress? (u : SpriteUnit) (c : Control) : Option UInt16 :=
  let tile := u.current.tile.toUInt16
  if u.fetchHeight = 16 then do
    let number ← add16? (tile &&& 0xFE) (if 8 ≤ u.fetchRow then 1 else 0)
    return (tile &&& 1) <<< 12 ||| number <<< 4 ||| u.fetchRow &&& 7
  else some (c.spriteBase ||| tile <<< 4 ||| u.fetchRow)

def orient? (u : SpriteUnit) (byte : UInt8) : Option UInt8 :=
  if u.current.flippedX then reversed[byte.toNat]? else some byte

def modifySlot? (u : SpriteUnit) (i : Nat) (f : SpriteSlot → SpriteSlot) : Option SpriteUnit := do
  let s ← u.slots[i]?
  let slots ← set? u.slots i (f s)
  return { u with slots }

def fetch? (u : SpriteUnit) (cart : κ) (m : Memory) (r : Registers) (slot step : Nat) :
    Option SpriteUnit :=
  if slot < u.foundCount then
    match step with
    | 1 => u.takeUp? slot
    | 2 => u.modifySlot? slot fun s =>
      { s with palette := u.current.palette, behind := u.current.behind }
    | 3 => u.modifySlot? slot fun s => s.place u.current.x
    | 5 => do
      let address ← u.planeAddress? r.control
      let byte ← m.readPattern? cart r.mask.colourMask address
      let byte ← u.orient? byte
      u.modifySlot? slot fun s => { s with planeLow := byte }
    | 7 => do
      let address ← u.planeAddress? r.control
      let byte ← m.readUpper? cart r.mask.colourMask address
      let byte ← u.orient? byte
      u.modifySlot? slot fun s => { s with planeHigh := byte }
    | _ => some u
  else some u

def add? (u : SpriteUnit) (index : Fin 64) (sprite : FoundSprite) : Option SpriteUnit := do
  let found ← set? u.found u.foundCount sprite
  return { u with
    found
    foundCount := u.foundCount + 1
    foundZero := u.foundZero || index.val == 0 }

/-- The slots that are drawn from are the first of eight. -/
def front? (u : SpriteUnit) : Option (Option (Fin 8)) :=
  if u.slotCount ≤ 8 then some u.front else none

def advance? (u : SpriteUnit) : Option SpriteUnit := do
  let slots ← (List.range u.slotCount).foldlM (fun slots i => do
    let s ← slots[i]?
    let s ← s.advance?
    set? slots i s) u.slots
  return { u with slots }

variable {u : SpriteUnit} {r : Registers}

theorem tileRow?_eq {s : FoundSprite} (h : s.Bounded) : tileRow? s = some (tileRow s) := by
  unfold tileRow? tileRow
  split
  · rw [sub8?, if_pos h.one_le]
    exact if_pos h.row_le
  · rfl

/-- Upside down, a row beyond the height would run below zero. -/
example : tileRow? { entry := { attributes := 0x80 }, row := 8, height := 8 } = none := by decide

theorem takeUp?_eq (h : u.Bounded) {j : Fin 8} (hj : j.val < u.foundCount) :
    u.takeUp? j = some (u.takeUp j) := by
  rw [takeUp?, Vector.getElem?_eq_getElem j.isLt]
  show (tileRow? u.found[j] >>= _) = _
  rw [tileRow?_eq (h.found j hj)]
  rfl

theorem planeAddress?_eq (c : Control) : u.planeAddress? c = some (u.planeAddress c) := by
  unfold planeAddress? planeAddress
  dsimp only
  split
  · have heven : (u.current.tile.toUInt16 &&& 0xFE).toNat ≤ 0xFE := by
      rw [UInt16.toNat_and]
      exact Nat.and_le_right
    have hlower : (if 8 ≤ u.fetchRow then 1 else 0 : UInt16).toNat ≤ 1 := by
      split <;> decide
    rw [add16?, if_pos (by show _ < 65536; omega)]
    rfl
  · rfl

theorem orient?_eq (byte : UInt8) : u.orient? byte = some (u.orient byte) := by
  unfold orient? orient
  split
  · rw [Vector.getElem?_eq_getElem byte.toNat_lt, reversed, Vector.getElem_ofFn]
    rfl
  · rfl

theorem modifySlot?_eq (j : Fin 8) (f : SpriteSlot → SpriteSlot) :
    u.modifySlot? j f = some (u.modifySlot j f) := by
  rw [modifySlot?, Vector.getElem?_eq_getElem j.isLt]
  show (set? u.slots j.val (f (u.slot j)) >>= _) = _
  rw [set?_eq _ _ j.isLt]
  rfl

theorem fetch?_eq (h : u.Bounded) (j : Fin 8) (step : Nat) :
    u.fetch? cart m r j step = some (u.fetch cart m r j step) := by
  have hupper := h.planeAddress_lt r.control
  have hlower := Nat.lt_of_add_right_lt hupper
  unfold fetch? fetch
  by_cases hj : j.val < u.foundCount
  · rw [if_pos hj, if_pos hj]
    match step with
    | 1 => exact takeUp?_eq h hj
    | 2 | 3 => exact modifySlot?_eq j _
    | 5 =>
      simp only [planeAddress?_eq, m.readPattern?_eq cart _ hlower, orient?_eq, modifySlot?_eq,
        Option.bind_eq_bind, Option.bind_some]
    | 7 =>
      simp only [planeAddress?_eq, m.readUpper?_eq cart _ hupper, orient?_eq, modifySlot?_eq,
        Option.bind_eq_bind, Option.bind_some]
    | 0 | 4 | 6 | _ + 8 => rfl
  · rw [if_neg hj, if_neg hj]

theorem add?_eq (h : u.foundCount < 8) (index : Fin 64) (sprite : FoundSprite) :
    u.add? index sprite = some (u.add index sprite) := by
  have hzero : (index.val == 0) = (index == 0) := by
    rw [Bool.eq_iff_iff, beq_iff_eq, beq_iff_eq]
    exact Fin.val_eq_zero_iff
  rw [add?, set?_eq _ _ h, add, dif_pos h, hzero]
  rfl

/-- The slots after the first `n` of them have moved on. -/
def advanced (u : SpriteUnit) (n : Nat) : Vector SpriteSlot 8 :=
  u.slots.mapFinIdx fun i s _ => if i < n then s.advance else s

theorem advanced_zero (u : SpriteUnit) : u.advanced 0 = u.slots := by
  refine Vector.ext fun k hk => ?_
  rw [advanced, Vector.getElem_mapFinIdx, if_neg (Nat.not_lt_zero k)]

theorem advanced_succ (u : SpriteUnit) {n : Nat} (hn : n < 8) :
    (u.advanced n).set n (u.slots[n]).advance = u.advanced (n + 1) := by
  refine Vector.ext fun k hk => ?_
  unfold advanced
  rw [Vector.getElem_set, Vector.getElem_mapFinIdx, Vector.getElem_mapFinIdx]
  by_cases hnk : n = k
  · subst hnk
    rw [if_pos rfl, if_pos (Nat.lt_succ_self n)]
  · rw [if_neg hnk]
    exact if_congr (by omega) rfl rfl

theorem advance?_eq (h : u.slotCount ≤ 8) : u.advance? = some u.advance := by
  unfold advance?
  rw [← advanced_zero, foldlM_range_eq u.advanced]
  · unfold advance
    split
    · rename_i hnone
      have hslots : u.advanced u.slotCount = u.slots := by rw [hnone, advanced_zero]
      rw [hslots]
      rfl
    · rfl
  · intro i hi
    have hlt : i < 8 := Nat.lt_of_lt_of_le hi h
    -- no slot has moved before its turn
    have hslot : (u.advanced i)[i]? = some u.slots[i] := by
      rw [Vector.getElem?_eq_getElem hlt, advanced, Vector.getElem_mapFinIdx,
        if_neg (Nat.lt_irrefl i)]
    rw [hslot]
    show ((u.slots[i]).advance? >>= _) = _
    rw [SpriteSlot.advance?_eq, ← u.advanced_succ hlt]
    exact set?_eq _ _ hlt

/-- Nine slots would be one too many. -/
example : ({ slotCount := 9 } : SpriteUnit).advance?.isNone := by decide

end SpriteUnit

/-! ### The pixel of a tick -/

namespace Raster

def backgroundDot? (q : Raster) (regs : Registers) : Option (UInt8 × UInt8) :=
  if regs.mask.backgroundAt q.column then do
    let value ← q.background.pixel? regs.fineX
    let palette ← q.background.pixelPalette? regs.fineX
    return (value, palette)
  else some (0, 0)

def spriteDot? (q : Raster) (regs : Registers) : Option (Option (Fin 8)) :=
  if regs.mask.spritesAt q.column then q.sprites.front? else some none

/-- The colour of the pixel.  A sprite's palette is counted on from the four of the background. -/
def colour? (q : Raster) (m : Memory) (regs : Registers) : Option UInt8 := do
  let (value, palette) ← q.backgroundDot? regs
  match ← q.spriteDot? regs with
  | some i =>
    let s ← q.sprites.slots[i.val]?
    if s.behind && value != 0 then m.colour? regs.mask.colourMask palette value
    else
      let palette ← add8? 4 s.palette
      m.colour? regs.mask.colourMask palette s.pixel
  | none => m.colour? regs.mask.colourMask palette value

variable {q : Raster} {regs : Registers}

theorem backgroundDot?_eq (h : regs.Bounded) :
    q.backgroundDot? regs = some (q.backgroundDot regs) := by
  unfold backgroundDot? backgroundDot
  rw [Background.pixel?_eq _ h.fineX, Background.pixelPalette?_eq _ h.fineX]
  split <;> rfl

theorem spriteDot?_eq (h : q.sprites.Bounded) : q.spriteDot? regs = some (q.spriteDot regs) := by
  unfold spriteDot? spriteDot SpriteUnit.front?
  rw [if_pos h.slotCount]
  split <;> rfl

theorem colour?_eq (hq : q.sprites.Bounded) (hr : regs.Bounded) :
    q.colour? m regs = some (q.colour m regs) := by
  unfold colour? colour
  rw [backgroundDot?_eq hr, spriteDot?_eq hq]
  dsimp only
  cases q.spriteDot regs with
  | none => exact m.colour?_eq _ _ _
  | some i =>
    have hpalette := UInt8.le_iff_toNat_le.mp (hq.palette i)
    have hadd : add8? 4 (q.sprites.slot i).palette = some (4 + (q.sprites.slot i).palette) :=
      if_pos (by change _ ≤ 3 at hpalette; show 4 + _ < 256; omega)
    have hslot : q.sprites.slots[i.val]? = some (q.sprites.slot i) :=
      Vector.getElem?_eq_getElem i.isLt
    dsimp only [Option.bind_eq_bind, Option.bind_some]
    rw [hslot]
    dsimp only [Option.bind_some]
    split
    · exact m.colour?_eq _ _ _
    · rw [hadd]
      exact m.colour?_eq _ _ _

end Raster

/-! ### The work of a tick -/

def Registers.vFetched? (r : Registers) (tick : Nat) : Option ScrollAddress :=
  if tick % 8 = 0 ∧ r.mask.rendering then r.v.right? else some r.v

theorem Registers.vFetched?_eq (r : Registers) (tick : Nat) :
    r.vFetched? tick = some (r.vFetched tick) := by
  unfold vFetched? vFetched
  rw [ScrollAddress.right?_eq]
  split <;> rfl

namespace Scan

def evaluate? (m : Memory) (index : Fin 64) (s : Scan σ) : Option (Scan σ) := do
  let entry ← m.sprite? index
  let height := s.regs.control.spriteHeight
  let line := s.raster.beam.line
  if !SpriteUnit.inRange entry height line then some s
  else if s.raster.sprites.isFull then some { s with regs := s.regs.noteOverflow true }
  else do
    let row ← sub? line entry.y.toNat
    let sprites ← s.raster.sprites.add? index ⟨entry, .ofNat row, .ofNat height⟩
    return { s with raster := { s.raster with sprites } }

def findSprites? (m : Memory) (s : Scan σ) : Option (Scan σ) :=
  let tick := s.raster.beam.tick
  if tick = 64 then
    some { s with raster := { s.raster with sprites := s.raster.sprites.clearFound } }
  else match SpriteUnit.considered tick with
    | some index => s.evaluate? m index
    | none => some s

def scroll? (f : Registers → Option ScrollAddress) (s : Scan σ) : Option (Scan σ) :=
  if s.regs.mask.rendering then do
    let v ← f s.regs
    return { s with regs := { s.regs with v } }
  else some s

def fetchBackground? (cart : κ) (m : Memory) (s : Scan σ) : Option (Scan σ) := do
  let tick := s.raster.beam.tick
  let background ← s.raster.background.fetch? cart m s.regs tick
  let v ← s.regs.vFetched? tick
  return { s with raster := { s.raster with background }, regs := { s.regs with v } }

def fetchSprites? (cart : κ) (m : Memory) (s : Scan σ) : Option (Scan σ) := do
  let t ← sub? s.raster.beam.tick 257
  let sprites ← s.raster.sprites.fetch? cart m s.regs (t / 8) (t % 8)
  return { s with raster := { s.raster with sprites } }

def prepare? (cart : κ) (m : Memory) (s : Scan σ) : Option (Scan σ) :=
  let tick := s.raster.beam.tick
  if 321 ≤ tick ∧ tick ≤ 336 then s.fetchBackground? cart m else some (s.prepare cart m)

variable {s : Scan σ}

theorem evaluate?_eq (index : Fin 64) : s.evaluate? m index = some (s.evaluate m index) := by
  rw [evaluate?, m.sprite?_eq, evaluate]
  dsimp only [Option.bind_eq_bind, Option.bind_some]
  split
  · rfl
  · rename_i hin
    split
    · simp only [Registers.noteOverflow, Bool.or_true]
    · rename_i hfull
      have hle : (m.sprite index).y.toNat ≤ s.raster.beam.line := by
        simp only [SpriteUnit.inRange, Bool.not_eq_true', Bool.not_eq_false, Bool.and_eq_true,
          decide_eq_true_eq] at hin
        exact hin.1
      have hroom : s.raster.sprites.foundCount < 8 := by
        simpa [SpriteUnit.isFull] using hfull
      rw [sub?, if_pos hle]
      dsimp only [Option.bind_some]
      rw [SpriteUnit.add?_eq hroom]
      rfl

theorem findSprites?_eq : s.findSprites? m = some (s.findSprites m) := by
  unfold findSprites? findSprites SpriteUnit.considered
  dsimp only
  split
  · rfl
  · by_cases hrange : 65 ≤ s.raster.beam.tick ∧ s.raster.beam.tick ≤ 191
    · rw [dif_pos hrange, dif_pos hrange]
      by_cases hodd : s.raster.beam.tick % 2 = 1
      · rw [if_pos hodd, if_pos hodd]
        exact evaluate?_eq _
      · rw [if_neg hodd, if_neg hodd]
    · rw [dif_neg hrange, dif_neg hrange]

theorem scroll?_eq {f : Registers → Option ScrollAddress} {g : Registers → ScrollAddress}
    (h : f s.regs = some (g s.regs)) : s.scroll? f = some (s.scroll g) := by
  unfold scroll? scroll
  rw [h]
  split <;> rfl

theorem fetchBackground?_eq : s.fetchBackground? cart m = some (s.fetchBackground cart m) := by
  rw [fetchBackground?, Background.fetch?_eq, Registers.vFetched?_eq, fetchBackground_eq]
  rfl

theorem fetchSprites?_eq (h : s.raster.sprites.Bounded) (h₁ : 257 ≤ s.raster.beam.tick)
    (h₂ : s.raster.beam.tick ≤ 320) : s.fetchSprites? cart m = some (s.fetchSprites cart m) := by
  have hslot : (s.raster.beam.tick - 257) / 8 < 8 := by omega
  have hfetch : s.raster.sprites.fetch? cart m s.regs ((s.raster.beam.tick - 257) / 8)
      ((s.raster.beam.tick - 257) % 8) =
      some (s.raster.sprites.load cart m s.regs s.raster.beam.tick) := by
    rw [SpriteUnit.load, dif_pos hslot]
    exact SpriteUnit.fetch?_eq h ⟨_, hslot⟩ _
  rw [fetchSprites?, sub?, if_pos h₁, fetchSprites_eq]
  dsimp only [Option.bind_eq_bind, Option.bind_some]
  rw [hfetch]
  rfl

theorem prepare?_eq : s.prepare? cart m = some (s.prepare cart m) := by
  unfold prepare?
  dsimp only
  split
  · rename_i htick
    have hprepare : s.prepare cart m = s.fetchBackground cart m := by
      unfold prepare
      dsimp only
      rw [if_neg (by omega), if_neg (by omega), if_pos htick]
    rw [fetchBackground?_eq, hprepare]
  · rfl

variable [PixelSink σ]

def emit? (m : Memory) (s : Scan σ) : Option (Scan σ) := do
  let column ← sub? s.raster.beam.tick 1
  let colour ← s.raster.colour? m s.regs
  let sprites ← s.raster.sprites.advance?
  return {
    raster := { s.raster with background := s.raster.background.shift, sprites }
    regs := s.regs.noteHit (s.raster.hitsZero s.regs)
    sink := PixelSink.putPixel s.sink column s.raster.beam.line colour }

def visible? (cart : κ) (m : Memory) (s : Scan σ) : Option (Scan σ) :=
  let tick := s.raster.beam.tick
  if tick = 0 then some (s.onSprites .startLine)
  else if tick ≤ 256 then do
    let s ← s.findSprites? m
    let s ← s.emit? m
    s.fetchBackground? cart m
  else if tick = 257 then s.scroll? fun r => do
    let v ← r.v.down?
    return v.copyHorizontal r.t
  else if tick ≤ 320 then s.fetchSprites? cart m
  else if tick ≤ 336 then s.fetchBackground? cart m
  else some s

/-- One tick; between the last visible line and the one that prepares the picture there is nothing
to check. -/
def step? (cart : κ) (m : Memory) (s : Scan σ) : Option (Scan σ) :=
  let line := s.raster.beam.next.line
  if line < 240 then s.moved.visible? cart m
  else if line < Beam.preparing then some (s.step cart m)
  else s.moved.prepare? cart m

theorem emit?_eq (hq : s.raster.sprites.Bounded) (hr : s.regs.Bounded)
    (htick : 1 ≤ s.raster.beam.tick) : s.emit? m = some (s.emit m) := by
  rw [emit?, sub?, if_pos htick, Raster.colour?_eq hq hr, SpriteUnit.advance?_eq hq.slotCount,
    emit_eq]
  rfl

theorem visible?_eq (hq : s.raster.sprites.Bounded) (hr : s.regs.Bounded)
    (hnone : s.raster.beam.tick = 64 → s.raster.sprites.foundCount = 0) :
    s.visible? cart m = some (s.visible cart m) := by
  unfold visible? visible
  dsimp only
  split_ifs with hzero hdraws hturn hfetch hprefetch
  · rfl
  · -- looking for sprites comes first and keeps the bounds that the pixel needs
    have hfound : (s.findSprites m).raster.sprites.Bounded := by
      rw [findSprites_eq]
      exact hq.find hnone
    have hregs : (s.findSprites m).regs.Bounded := by
      rw [findSprites_eq]
      exact ⟨hr.v, hr.t, hr.fineX⟩
    have htick : 1 ≤ (s.findSprites m).raster.beam.tick := by
      rw [findSprites_eq]
      exact Nat.one_le_iff_ne_zero.mpr hzero
    rw [findSprites?_eq]
    dsimp only [Option.bind_eq_bind, Option.bind_some]
    rw [emit?_eq hfound hregs htick]
    exact fetchBackground?_eq
  · refine scroll?_eq ?_
    rw [ScrollAddress.down?_eq]
    rfl
  · exact fetchSprites?_eq hq (by omega) hfetch
  · exact fetchBackground?_eq
  · rfl

/-- **A tick that starts in bounds passes every check.** -/
theorem step?_eq (h : s.Bounded) : s.step? cart m = some (s.step cart m) := by
  have hline := Beam.next_line_le h.raster.line
  unfold step?
  dsimp only
  split
  · rename_i hvisible
    rw [step_visible hvisible]
    refine visible?_eq h.raster.sprites h.regs fun htick => ?_
    replace htick : s.raster.beam.next.tick = 64 := htick
    -- tick 64 finds no sprites counted
    exact h.raster.unfound_next hvisible (by omega) (by omega)
  · split
    · rfl
    · have hpreparing : s.raster.beam.next.line = Beam.preparing := by omega
      rw [step_preparing hpreparing]
      exact prepare?_eq

end Scan

end Famicom.Picture
