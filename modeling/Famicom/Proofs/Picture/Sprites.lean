import Famicom.Proofs.Picture.Frame
import Mathlib.Logic.Function.Iterate

/-!
# The sprites along a row

Row `y` prepares the sprites of line `y`.  While it is drawn the unit goes through the sprite list
and notes down the sprites that show on line `y` (`Found`); at its end it fills the slots from what
was noted (`Filling`); and the next row draws from the slots, which move on by one column at every
tick (`Drawing`).  `SpriteUnit.OnRow` says all this of a tick; one tick preserves it, and so every
tick of a frame finds the slots of its place (`Scan.after_spritesOnRow`).
-/

namespace Famicom.Picture

variable {κ σ : Type} [Cartridge κ] {cart : κ} {m : Memory} {r r' : Registers}

namespace SpriteUnit

/-! ### Which sprites show on a line -/

/-- Those of the first `n` entries that show on line `y`.  On the first line no sprite shows. -/
def showing (m : Memory) (c : Control) (n : Nat) : Nat → List (Fin 64)
  | 0 => []
  | y + 1 => ((List.finRange 64).take n).filter (reaches m c y)

/-- The sprites that are drawn on line `y`: the first eight of those that show. -/
def candidates (m : Memory) (c : Control) : Nat → List (Fin 64)
  | 0 => []
  | y + 1 => ((List.finRange 64).filter (reaches m c y)).take 8

/-- The entries that the ticks of a row up to `t` have looked at. -/
def entriesBy (t : Nat) : Nat := min 64 ((t - 63) / 2)

variable {c : Control} {n t y : Nat} {u : SpriteUnit}

theorem take_showing (m : Memory) (c : Control) (y : Nat) :
    (showing m c 64 y).take 8 = candidates m c y := by
  cases y with
  | zero => rfl
  | succ y =>
    have hall : (List.finRange 64).take 64 = List.finRange 64 := List.take_of_length_le (by simp)
    rw [showing, hall, candidates]

theorem length_candidates (m : Memory) (c : Control) (y : Nat) : (candidates m c y).length ≤ 8 := by
  rw [← take_showing]
  exact List.length_take_le 8 _

theorem showing_zero (m : Memory) (c : Control) (y : Nat) : showing m c 0 y = [] := by
  cases y <;> rfl

theorem showing_succ (m : Memory) (c : Control) (y : Nat) (i : Fin 64) :
    showing m c (i + 1) (y + 1) =
      showing m c i (y + 1) ++ if reaches m c y i then [i] else [] := by
  have htake : (List.finRange 64).take (i + 1) = (List.finRange 64).take i ++ [i] := by
    rw [List.take_add_one]
    simp
  rw [showing, htake, List.filter_append, List.filter_cons]
  rfl

/-! ### Noting them down -/

/-- The sprites of a list are noted down, as far as there is room. -/
structure Found (m : Memory) (c : Control) (line : Nat) (l : List (Fin 64)) (u : SpriteUnit) :
    Prop where
  count : u.foundCount = min 8 l.length
  entry : ∀ k : Fin 8, ∀ i, l[k.val]? = some i → u.found[k] = note m c line i
  zero : u.foundZero = true ↔ l.head? = some 0

theorem Found.of_eq {u' : SpriteUnit} {line : Nat} {l : List (Fin 64)} (h : Found m c line l u)
    (hfound : u'.found = u.found) (hcount : u'.foundCount = u.foundCount)
    (hzero : u'.foundZero = u.foundZero) : Found m c line l u' where
  count := hcount.trans h.count
  entry k i hi := by
    rw [hfound]
    exact h.entry k i hi
  zero := by
    rw [hzero]
    exact h.zero

/-- A sprite more is noted down.  The first entry of the sprite list comes first or not at all. -/
theorem Found.add {line : Nat} {l : List (Fin 64)} {i : Fin 64} (h : Found m c line l u)
    (hi : i = 0 → l = []) : Found m c line (l ++ [i]) (u.add i (note m c line i)) := by
  have hlength : (l ++ [i]).length = l.length + 1 := List.length_append
  have hcount := h.count
  by_cases hfull : u.foundCount < 8
  · have hlen : u.foundCount = l.length := by omega
    unfold SpriteUnit.add
    rw [dif_pos hfull]
    refine ⟨?_, ?_, ?_⟩
    · show u.foundCount + 1 = _
      omega
    · intro k j hj
      show (u.found.set u.foundCount (note m c line i) hfull)[k.val] = _
      rw [Vector.getElem_set]
      by_cases hk : u.foundCount = k.val
      · rw [if_pos hk]
        rw [← hk, hlen, List.getElem?_append_right (Nat.le_refl _), Nat.sub_self] at hj
        rw [← Option.some.inj hj]
      · rw [if_neg hk]
        apply h.entry k j
        have hlt : k.val < l.length := by
          have := (List.getElem?_eq_some_iff.mp hj).1
          omega
        rwa [List.getElem?_append_left hlt] at hj
    · show (u.foundZero || i == 0) = true ↔ _
      cases l with
      | nil =>
        have hnot : u.foundZero = false := by
          rw [← Bool.not_eq_true, h.zero]
          exact nofun
        simp [hnot]
      | cons j l =>
        have hne : (i == 0) = false := by
          rw [beq_eq_false_iff_ne]
          exact fun h => absurd (hi h) (List.cons_ne_nil j l)
        rw [hne, Bool.or_false, h.zero]
        rfl
  · have hge : 8 ≤ l.length := by omega
    unfold SpriteUnit.add
    rw [dif_neg hfull]
    refine ⟨?_, ?_, ?_⟩
    · omega
    · intro k j hj
      rw [List.getElem?_append_left (Nat.lt_of_lt_of_le k.isLt hge)] at hj
      exact h.entry k j hj
    · rw [h.zero]
      cases l with
      | nil => exact absurd hge (by decide)
      | cons j l => rfl

theorem entriesBy_of_considered {i : Fin 64} (h : considered (t + 1) = some i) :
    entriesBy t = i ∧ entriesBy (t + 1) = i + 1 := by
  unfold considered at h
  split at h
  · split at h
    · have hi : (t + 1 - 65) / 2 = i.val := congrArg Fin.val (Option.some.inj h)
      unfold entriesBy
      omega
    · exact nomatch h
  · exact nomatch h

theorem entriesBy_of_not_considered (h : considered (t + 1) = none) :
    entriesBy (t + 1) = entriesBy t := by
  unfold considered at h
  unfold entriesBy
  split at h
  · split at h
    · exact nomatch h
    · omega
  · omega

theorem Found.find {b : Beam} (hline : b.line = y) (htick : b.tick = t + 1)
    (h : Found m c y (showing m c (entriesBy t) (y + 1)) u) :
    Found m c y (showing m c (entriesBy (t + 1)) (y + 1)) (u.find m c b) := by
  unfold SpriteUnit.find caught
  rw [htick, hline]
  by_cases hclear : t + 1 = 64
  · obtain rfl : t = 63 := Nat.succ_inj.mp hclear
    have hnone : showing m c (entriesBy (63 + 1)) (y + 1) = [] := showing_zero m c (y + 1)
    rw [if_pos rfl, hnone]
    have hempty : Found m c y [] u := h
    exact ⟨hempty.count, nofun, hempty.zero⟩
  · rw [if_neg hclear]
    cases hconsidered : considered (t + 1) with
    | none =>
      rw [entriesBy_of_not_considered hconsidered]
      exact h
    | some i =>
      obtain ⟨hbefore, hafter⟩ := entriesBy_of_considered hconsidered
      rw [hbefore] at h
      rw [hafter, showing_succ]
      by_cases hreaches : reaches m c y i = true
      · rw [if_pos hreaches, Option.filter_some, if_pos hreaches]
        apply h.add
        rintro rfl
        exact showing_zero m c (y + 1)
      · rw [if_neg hreaches, Option.filter_some, if_neg hreaches, List.append_nil]
        exact h

/-! ### Filling a slot -/

/-- What a step of filling makes of a slot, given the sprite taken up. -/
def fillStep (cart : κ) (m : Memory) (r : Registers) (u : SpriteUnit) (step : Nat)
    (s : SpriteSlot) : SpriteSlot :=
  match step with
  | 2 => { s with palette := u.current.palette, behind := u.current.behind }
  | 3 => s.place u.current.x
  | 5 => { s with planeLow := u.orient (m.read cart r.mask.colourMask (u.planeAddress r.control)) }
  | 7 =>
    { s with
      planeHigh := u.orient (m.read cart r.mask.colourMask (u.planeAddress r.control + 8)) }
  | _ => s

/-- The two units have taken up the same sprite. -/
structure SameTaken (u u' : SpriteUnit) : Prop where
  current : u.current = u'.current
  fetchRow : u.fetchRow = u'.fetchRow
  fetchHeight : u.fetchHeight = u'.fetchHeight

/-- After `n` steps the slot is filled as another one, as far as they go. -/
structure Filled (s' : SpriteSlot) (n : Nat) (s : SpriteSlot) : Prop where
  colours : 2 ≤ n → s.palette = s'.palette ∧ s.behind = s'.behind
  place : 3 ≤ n → s.countdown = s'.countdown ∧ s.active = s'.active
  planeLow : 5 ≤ n → s.planeLow = s'.planeLow
  planeHigh : 7 ≤ n → s.planeHigh = s'.planeHigh

variable {s s' : SpriteSlot} {u' : SpriteUnit}

theorem SameTaken.symm (h : SameTaken u u') : SameTaken u' u :=
  ⟨h.current.symm, h.fetchRow.symm, h.fetchHeight.symm⟩

theorem SameTaken.trans {u'' : SpriteUnit} (h : SameTaken u u') (h' : SameTaken u' u'') :
    SameTaken u u'' :=
  ⟨h.current.trans h'.current, h.fetchRow.trans h'.fetchRow, h.fetchHeight.trans h'.fetchHeight⟩

theorem Filled.start (h : n ≤ 1) : Filled s' n s := by
  constructor <;> intro hle <;> omega

theorem Filled.eq (h : Filled s' n s) (hn : 7 ≤ n) : s = s' := by
  obtain ⟨hpalette, hbehind⟩ := h.colours (by omega)
  obtain ⟨hcountdown, hactive⟩ := h.place (by omega)
  have hlow := h.planeLow (by omega)
  have hhigh := h.planeHigh hn
  cases s
  cases s'
  simp_all only

theorem Filled.of_eq (h : s = s') (n : Nat) : Filled s' n s := by
  subst h
  exact ⟨fun _ => ⟨rfl, rfl⟩, fun _ => ⟨rfl, rfl⟩, fun _ => rfl, fun _ => rfl⟩

theorem Filled.step (h : Filled s' n s) (hu : SameTaken u u') :
    Filled (fillStep cart m r u' (n + 1) s') (n + 1) (fillStep cart m r u (n + 1) s) := by
  have haddress : u.planeAddress r.control = u'.planeAddress r.control := by
    unfold planeAddress
    rw [hu.current, hu.fetchRow, hu.fetchHeight]
  have horient (byte : UInt8) : u.orient byte = u'.orient byte := by
    unfold orient
    rw [hu.current]
  unfold fillStep
  split
  · refine ⟨fun _ => ⟨?_, ?_⟩, fun hle => absurd hle (by omega), fun hle => absurd hle (by omega),
      fun hle => absurd hle (by omega)⟩
    · rw [hu.current]
    · rw [hu.current]
  · refine ⟨fun _ => h.colours (by omega), fun _ => ⟨?_, ?_⟩, fun hle => absurd hle (by omega),
      fun hle => absurd hle (by omega)⟩
    · rw [hu.current]
      rfl
    · rw [hu.current]
      rfl
  · refine ⟨fun _ => h.colours (by omega), fun _ => h.place (by omega), fun _ => ?_,
      fun hle => absurd hle (by omega)⟩
    rw [haddress, horient]
  · refine ⟨fun _ => h.colours (by omega), fun _ => h.place (by omega),
      fun _ => h.planeLow (by omega), fun _ => ?_⟩
    rw [haddress, horient]
  · rename_i h2 h3 h5 h7
    replace h2 : n + 1 ≠ 2 := h2
    replace h3 : n + 1 ≠ 3 := h3
    replace h5 : n + 1 ≠ 5 := h5
    replace h7 : n + 1 ≠ 7 := h7
    exact ⟨fun _ => h.colours (by omega), fun _ => h.place (by omega),
      fun _ => h.planeLow (by omega), fun _ => h.planeHigh (by omega)⟩

theorem slot_modifySlot (u : SpriteUnit) (j k : Fin 8) (f : SpriteSlot → SpriteSlot) :
    (u.modifySlot j f).slot k = if k = j then f (u.slot k) else u.slot k := by
  unfold modifySlot slot
  show (u.slots.set j.val (f (u.slot j)))[k.val] = _
  rw [Vector.getElem_set]
  by_cases hk : k = j
  · subst hk
    rw [if_pos rfl, if_pos rfl]
    rfl
  · rw [if_neg fun h => hk (Fin.ext h).symm, if_neg hk]
    rfl

theorem modifySlot_self (u : SpriteUnit) (j : Fin 8) : u.modifySlot j (fun s => s) = u := by
  unfold modifySlot slot
  show { u with slots := u.slots.set j.val u.slots[j.val] } = u
  rw [Vector.set_getElem_self]

theorem fetch_eq (u : SpriteUnit) {j : Fin 8} (hj : j.val < u.foundCount) (step : Nat) :
    u.fetch cart m r j step =
      if step = 1 then u.takeUp j else u.modifySlot j (fillStep cart m r u step) := by
  unfold fetch
  rw [if_pos hj]
  match step with
  | 1 | 2 | 3 | 5 | 7 => rfl
  | 0 | 4 | 6 | _ + 8 => exact (modifySlot_self u j).symm

/-- What a tick of fetching makes of the slots. -/
theorem slot_fetch (u : SpriteUnit) (j k : Fin 8) (step : Nat) :
    (u.fetch cart m r j step).slot k =
      if k = j ∧ j.val < u.foundCount then fillStep cart m r u step (u.slot k) else u.slot k := by
  by_cases hj : j.val < u.foundCount
  · rw [fetch_eq u hj]
    simp only [hj, and_true]
    by_cases hstep : step = 1
    · subst hstep
      exact (ite_self _).symm
    · rw [if_neg hstep, slot_modifySlot]
  · unfold fetch
    rw [if_neg hj, if_neg fun h => hj h.2]

theorem found_fetch (u : SpriteUnit) (j : Fin 8) (step : Nat) :
    (u.fetch cart m r j step).found = u.found ∧
      (u.fetch cart m r j step).foundCount = u.foundCount ∧
        (u.fetch cart m r j step).foundZero = u.foundZero := by
  unfold fetch
  split
  · split <;> exact ⟨rfl, rfl, rfl⟩
  · exact ⟨rfl, rfl, rfl⟩

def taken (f : FoundSprite) : SpriteUnit where
  current := f.entry
  fetchRow := (tileRow f).toUInt16
  fetchHeight := f.height.toUInt16

/-- The slot that a sprite fills. -/
def fill (cart : κ) (m : Memory) (r : Registers) (f : FoundSprite) : SpriteSlot :=
  let u := taken f
  let address := u.planeAddress r.control
  { ({} : SpriteSlot).place f.entry.x with
    palette := f.entry.palette
    behind := f.entry.behind
    planeLow := u.orient (m.read cart r.mask.colourMask address)
    planeHigh := u.orient (m.read cart r.mask.colourMask (address + 8)) }

theorem fillStep_fill (f : FoundSprite) (step : Nat) :
    fillStep cart m r (taken f) step (fill cart m r f) = fill cart m r f := by
  match step with
  | 0 | 1 | 2 | 3 | 4 | 5 | 6 | 7 | _ + 8 => rfl

theorem fillStep_follows (hr : r.Follows r') (u : SpriteUnit) :
    fillStep cart m r' u = fillStep cart m r u := by
  unfold fillStep
  rw [hr.mask, hr.control]

theorem found_load (cart : κ) (m : Memory) (r : Registers) (tick : Nat) (u : SpriteUnit) :
    (u.load cart m r tick).found = u.found ∧ (u.load cart m r tick).foundCount = u.foundCount ∧
      (u.load cart m r tick).foundZero = u.foundZero := by
  unfold load
  split
  · exact found_fetch u _ _
  · exact ⟨rfl, rfl, rfl⟩

theorem slot_load (u : SpriteUnit) (k : Fin 8) (h : t < 320) :
    (u.load cart m r (t + 1)).slot k =
      if (t - 256) / 8 = k.val ∧ k.val < u.foundCount then
        fillStep cart m r u ((t - 256) % 8) (u.slot k)
      else u.slot k := by
  have hsub : t + 1 - 257 = t - 256 := by omega
  have hj : (t - 256) / 8 < 8 := by omega
  unfold load
  rw [hsub, dif_pos hj, slot_fetch]
  by_cases hk : (t - 256) / 8 = k.val
  · obtain rfl : k = ⟨(t - 256) / 8, hj⟩ := Fin.ext hk.symm
    simp only [true_and]
  · rw [if_neg fun h => hk (congrArg Fin.val h.1).symm, if_neg fun h => hk h.1]

/-- While the ticks of a slot last, its sprite is taken up. -/
def TakenUp (t : Nat) (u : SpriteUnit) : Prop :=
  ∀ k : Fin 8, k.val < u.foundCount → 257 + 8 * k.val < t → t < 265 + 8 * k.val →
    SameTaken u (taken (u.found.get k))

/-- The steps of filling slot `k` that the ticks up to `t` have made. -/
def stepsBy (t : Nat) (k : Fin 8) : Nat := t - (257 + 8 * k)

theorem TakenUp.idle (h : t ≤ 257 ∨ 320 < t) : TakenUp t u := by
  intro k _ h₁ h₂
  have hk := k.isLt
  omega

/-- The first of a slot's ticks takes its sprite up, and the others leave it. -/
theorem TakenUp.load (h : TakenUp t u) (h₁ : 257 ≤ t) (h₂ : t < 320) :
    TakenUp (t + 1) (u.load cart m r (t + 1)) := by
  intro k hk hlt hle
  obtain ⟨hlist, hcount, -⟩ := found_load cart m r (t + 1) u
  rw [hcount] at hk
  have hj : (t + 1 - 257) / 8 < 8 := by omega
  obtain rfl : k = ⟨(t + 1 - 257) / 8, hj⟩ := Fin.ext (by simp only; omega)
  rw [hlist]
  unfold SpriteUnit.load
  rw [dif_pos hj, fetch_eq u hk]
  by_cases hone : (t + 1 - 257) % 8 = 1
  · rw [if_pos hone]
    exact ⟨rfl, rfl, rfl⟩
  · rw [if_neg hone]
    have htaken := h _ hk (by simp only; omega) (by simp only; omega)
    exact ⟨htaken.current, htaken.fetchRow, htaken.fetchHeight⟩

/-- What a tick of fetching does to a slot, beside another slot to which the same is done. -/
theorem Filled.load (cart : κ) (m : Memory) (r : Registers) {k : Fin 8}
    (hk : k.val < u.foundCount) (h₁ : 257 ≤ t) (h₂ : t < 320)
    (h : Filled s' (stepsBy t k) (u.slot k))
    (hu : 257 + 8 * k.val < t → t < 265 + 8 * k.val → SameTaken u u') :
    Filled (if (t - 256) / 8 = k.val then fillStep cart m r u' ((t - 256) % 8) s' else s')
      (stepsBy (t + 1) k) ((u.load cart m r (t + 1)).slot k) := by
  rw [slot_load u k h₂]
  unfold stepsBy at *
  by_cases hnow : (t - 256) / 8 = k.val
  · rw [if_pos hnow, if_pos ⟨hnow, hk⟩]
    by_cases hstart : t + 1 - (257 + 8 * k.val) ≤ 1
    · exact .start hstart
    · have hstep : (t - 256) % 8 = t - (257 + 8 * k.val) + 1 := by omega
      have hn : t + 1 - (257 + 8 * k.val) = t - (257 + 8 * k.val) + 1 := by omega
      rw [hstep, hn]
      exact h.step (hu (by omega) (by omega))
  · rw [if_neg hnow, if_neg fun he => hnow he.1]
    rcases Nat.lt_or_ge t (264 + 8 * k) with hlt | hge
    · exact .start (by omega)
    · exact .of_eq (h.eq (by omega)) _

theorem Filled.rest {k : Fin 8} (h : Filled s' (stepsBy t k) s) (ht : 320 ≤ t) :
    Filled s' (stepsBy (t + 1) k) s := by
  have hk := k.isLt
  refine .of_eq (h.eq ?_) _
  unfold stepsBy
  omega

theorem Filled.idle {k : Fin 8} (h : t ≤ 257) : Filled s' (stepsBy t k) s := by
  apply Filled.start
  unfold stepsBy
  omega

/-- After tick `t` of a row the slots are filled from a list of sprites, as far as the ticks go. -/
def Filling (cart : κ) (m : Memory) (r : Registers) (line : Nat) (l : List (Fin 64)) (t : Nat)
    (u : SpriteUnit) : Prop :=
  ∀ k : Fin 8, ∀ i, l[k.val]? = some i →
    Filled (fill cart m r (note m r.control line i)) (stepsBy t k) (u.slot k)

variable {line : Nat} {l : List (Fin 64)}

theorem Filling.step (hr : r.Follows r') (hfound : Found m r.control line l u) (hu : TakenUp t u)
    (h : Filling cart m r line (l.take 8) t u) (h₁ : 257 ≤ t) (h₂ : t < 320) :
    Filling cart m r line (l.take 8) (t + 1) (u.load cart m r' (t + 1)) := by
  intro k i hi
  have hroom : k.val < u.foundCount := by
    have hlt := (List.getElem?_eq_some_iff.mp hi).1
    rw [List.length_take] at hlt
    rw [hfound.count]
    exact hlt
  have hentry : u.found.get k = note m r.control line i :=
    hfound.entry k i ((List.getElem?_take_of_lt k.isLt).symm.trans hi)
  have hnext := (h k i hi).load cart m r' hroom h₁ h₂ (hu k hroom)
  rw [hentry, fillStep_follows hr, fillStep_fill, ite_self] at hnext
  exact hnext

/-! ### Drawing from the slots -/

/-- After tick `t` of a row the slots of a list of sprites are drawn from, `t` columns on. -/
structure Drawing (cart : κ) (m : Memory) (r : Registers) (line : Nat) (l : List (Fin 64)) (t : Nat)
    (u : SpriteUnit) : Prop where
  count : u.slotCount = l.length
  zero : u.slotZero = true ↔ l.head? = some 0
  slot : ∀ k : Fin 8, ∀ i, l[k.val]? = some i →
    u.slot k = SpriteSlot.advance^[t] (fill cart m r (note m r.control line i))

theorem slot_advance (u : SpriteUnit) {k : Fin 8} (hk : k.val < u.slotCount) :
    u.advance.slot k = (u.slot k).advance := by
  unfold advance slot
  rw [if_neg (Nat.ne_of_gt (Nat.lt_of_le_of_lt (Nat.zero_le _) hk))]
  show (u.slots.mapFinIdx _)[k.val] = _
  rw [Vector.getElem_mapFinIdx, if_pos hk]
  rfl

theorem advance_eq (u : SpriteUnit) : u.advance = { u with slots := u.advance.slots } := by
  unfold advance
  split <;> rfl

theorem Drawing.step (h : Drawing cart m r line l t u) (b : Beam) :
    Drawing cart m r line l (t + 1) (u.find m c b).advance := by
  obtain ⟨hslots, hcount, hzero⟩ := u.find_slots (m := m) c b
  rw [advance_eq]
  refine ⟨hcount.trans h.count, ?_, ?_⟩
  · show (u.find m c b).slotZero = true ↔ _
    rw [hzero]
    exact h.zero
  · intro k i hi
    have hk : k.val < (u.find m c b).slotCount := by
      rw [hcount, h.count]
      exact (List.getElem?_eq_some_iff.mp hi).1
    have hslot : (u.find m c b).slot k = u.slot k := congrArg (·[k]) hslots
    show (u.find m c b).advance.slot k = _
    rw [slot_advance _ hk, hslot, h.slot k i hi, Function.iterate_succ_apply']

/-- A line begins with the slots that the row before has filled. -/
theorem Drawing.start (hfound : Found m r.control line l u)
    (hfilling : Filling cart m r line (l.take 8) 340 u) :
    Drawing cart m r line (l.take 8) 0 u.startLine where
  count := by
    rw [List.length_take]
    exact hfound.count
  zero := by
    have hhead : (l.take 8).head? = l.head? := by cases l <;> rfl
    rw [hhead]
    exact hfound.zero
  slot k i hi := by
    have hk := k.isLt
    apply (hfilling k i hi).eq
    unfold stepsBy
    omega

/-! ### A row -/

section Share

variable {b : Beam}

theorem share_draws (h : b.Draws) : u.share cart m r b = (u.find m r.control b).advance := by
  rw [share, if_pos h]

theorem share_loads (hline : b.line < 240) (h₁ : 258 ≤ b.tick) (h₂ : b.tick ≤ 320) :
    u.share cart m r b = u.load cart m r b.tick := by
  have hdraws : ¬ b.Draws := fun h => by
    have := h.2.2
    omega
  rw [share, if_neg hdraws, if_pos hline, if_neg (by omega), if_pos ⟨h₁, h₂⟩]

theorem share_rests (hline : b.line < 240) (h : b.tick = 257 ∨ 320 < b.tick) :
    u.share cart m r b = u := by
  have hdraws : ¬ b.Draws := fun h => by
    have := h.2.2
    omega
  rw [share, if_neg hdraws, if_pos hline, if_neg (by omega), if_neg (by omega)]

theorem share_starts (hline : b.line < 240) (h : b.tick = 0) :
    u.share cart m r b = u.startLine := by
  have hdraws : ¬ b.Draws := fun hd => by
    have := hd.2.1
    omega
  rw [share, if_neg hdraws, if_pos hline, if_pos h]

theorem share_prepares (hline : b.line = Beam.preparing) :
    u.share cart m r b = if b.tick = 1 ∨ b.tick = 320 then u.clearCounts else u := by
  have hvisible : ¬ b.line < 240 := by
    rw [hline, Beam.preparing]
    decide
  have hdraws : ¬ b.Draws := fun h => hvisible h.1
  rw [share, if_neg hdraws, if_neg hvisible]
  simp only [hline, true_and]

end Share

/-- The sprites after tick `t` of a row. -/
structure OnRow (cart : κ) (m : Memory) (r : Registers) (row t : Nat) (u : SpriteUnit) : Prop where
  found : 0 < row ∨ 0 < t → Found m r.control (row - 1) (showing m r.control (entriesBy t) row) u
  takenUp : 0 < row → TakenUp t u
  filling : Filling cart m r (row - 1) (candidates m r.control row) t u
  drawing : ∀ y, row = y + 1 → t ≤ 256 →
    Drawing cart m r (y - 1) (candidates m r.control y) t u

section Rows

variable {row : Nat} (hr : r.Follows r') (hrow : row ≤ 240)
include hr hrow

theorem OnRow.tick (ht : t < 340) (h : OnRow cart m r row t u) :
    OnRow cart m r row (t + 1) (u.share cart m r' (.place row (t + 1))) := by
  cases row with
  | zero =>
    refine ⟨fun _ => ?_, nofun, nofun, nofun⟩
    rw [share_prepares rfl]
    by_cases hclear : (Beam.place 0 (t + 1)).tick = 1 ∨ (Beam.place 0 (t + 1)).tick = 320
    · rw [if_pos hclear]
      exact ⟨rfl, nofun, nofun, nofun⟩
    · rw [if_neg hclear]
      exact h.found (.inr (Nat.pos_of_ne_zero fun h0 => hclear (.inl (congrArg (· + 1) h0))))
  | succ y =>
    have hline : (Beam.place (y + 1) (t + 1)).line = y := Beam.place_line (by omega)
    have hvisible : (Beam.place (y + 1) (t + 1)).line < 240 := by omega
    have hfound := h.found (.inl (Nat.succ_pos y))
    rcases Nat.lt_or_ge t 256 with hdraw | hge
    · have hdraws := (Beam.draws_place hrow).mpr ⟨Nat.succ_pos t, hdraw⟩
      rw [share_draws hdraws, hr.control]
      refine ⟨fun _ => ?_, fun _ => .idle (.inl (by omega)), fun _ _ _ => .idle (by omega), ?_⟩
      · rw [advance_eq]
        exact (hfound.find hline rfl).of_eq rfl rfl rfl
      · intro z hz _
        exact (h.drawing z hz (Nat.le_of_lt hdraw)).step _
    · have hentries : entriesBy (t + 1) = entriesBy t := by
        unfold entriesBy
        omega
      have hdrawing : ∀ u' z, y + 1 = z + 1 → t + 1 ≤ 256 →
          Drawing cart m r (z - 1) (candidates m r.control z) (t + 1) u' := by
        intro u' z _ hle
        omega
      by_cases hload : 258 ≤ t + 1 ∧ t + 1 ≤ 320
      · rw [share_loads hvisible hload.1 hload.2]
        obtain ⟨hlist, hcount, hzero⟩ := found_load cart m r' (t + 1) u
        have htaken := h.takenUp (Nat.succ_pos y)
        refine ⟨fun _ => ?_, fun _ => htaken.load (by omega) (by omega), ?_, hdrawing _⟩
        · rw [hentries]
          exact hfound.of_eq hlist hcount hzero
        · have hall : entriesBy t = 64 := by
            unfold entriesBy
            omega
          have hfilling := h.filling
          rw [hall] at hfound
          rw [← take_showing] at hfilling ⊢
          exact hfilling.step hr hfound htaken (by omega) (by omega)
      · rw [share_rests hvisible (show t + 1 = 257 ∨ 320 < t + 1 by omega)]
        refine ⟨fun _ => ?_, fun _ => .idle (by omega), fun k i hi => ?_, hdrawing _⟩
        · rw [hentries]
          exact hfound
        · rcases Nat.lt_or_ge t 257 with hlt | hge
          · exact .idle hlt
          · exact (h.filling k i hi).rest (by omega)

omit hr hrow in
theorem OnRow.turn (hrow : row < 240) (h : OnRow cart m r row 340 u) :
    OnRow cart m r (row + 1) 0 (u.share cart m r' (.place (row + 1) 0)) := by
  have hline : (Beam.place (row + 1) 0).line = row := Beam.place_line (by omega)
  rw [share_starts (hline.symm ▸ hrow : (Beam.place (row + 1) 0).line < 240) rfl]
  refine ⟨fun _ => ?_, fun _ => .idle (.inl (Nat.zero_le _)), fun _ _ _ => .idle (Nat.zero_le _),
    ?_⟩
  · have hnone : showing m r.control (entriesBy 0) (row + 1) = [] := showing_zero m r.control _
    rw [hnone]
    exact ⟨rfl, nofun, nofun, nofun⟩
  · intro y hy _
    obtain rfl : row = y := Nat.succ_inj.mp hy
    have hfilling := h.filling
    rw [← take_showing] at hfilling ⊢
    exact .start (h.found (.inr (by decide))) hfilling

end Rows

end SpriteUnit

namespace Scan

variable [PixelSink σ] {s : Scan σ}

/-- **Every tick of a frame finds the sprites of its place.** -/
theorem after_spritesOnRow (cart : κ) (m : Memory) (hs : s.raster.beam = .start) (row : Nat)
    {t : Nat} (hrow : row ≤ 240) (ht : t ≤ 340) :
    SpriteUnit.OnRow cart m s.regs row t (after cart m s row t).raster.sprites := by
  refine rows_induction
    (P := fun row t => SpriteUnit.OnRow cart m s.regs row t (after cart m s row t).raster.sprites)
    ?_ ?_ ?_ hrow ht
  · exact ⟨fun h => absurd h (by decide), fun h => absurd h (by decide), nofun, nofun⟩
  · intro row t hrow ht ih
    have hnext := after_next cart m hs row ht
    rw [after_tick, step_sprites (hnext ▸ Beam.place_line_le row (t + 1)), hnext]
    exact ih.tick (after_follows cart m hs row t) hrow ht
  · intro row hrow ih
    have hnext := after_next_last cart m hs row
    rw [after_turn, step_sprites (hnext ▸ Beam.place_line_le (row + 1) 0), hnext]
    exact ih.turn hrow

end Scan

end Famicom.Picture
