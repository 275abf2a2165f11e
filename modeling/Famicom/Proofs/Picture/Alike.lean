import Famicom.Proofs.Picture.Sprites

/-!
# Two rasters on one picture

What a raster holds from an earlier picture does not show in the next one.  Two drawings are `Alike`
when they differ only in what no later tick looks at: the background before its first tile is
loaded, the slots and the notes beyond the sprites that were found.  A tick makes the same of the
registers and the sink of both and leaves them alike (`Scan.Alike.step`).
-/

namespace Famicom.Picture

variable {κ σ : Type} [Cartridge κ] {cart : κ} {m : Memory} {r : Registers} {b : Beam}

/-! ### Backgrounds -/

/-- The backgrounds agree in what has been fetched since the beginning of the frame. -/
structure Background.Alike (elapsed : Nat) (g g' : Background) : Prop where
  tile : 322 ≤ elapsed → g.tile = g'.tile
  palette : 324 ≤ elapsed → g.palette = g'.palette
  planeLow : 326 ≤ elapsed → g.planeLow = g'.planeLow
  all : 328 ≤ elapsed → g = g'

theorem Beam.OnCourse.first_line (h : b.OnCourse) (he : b.elapsed < 341) :
    b.line = preparing ∧ b.tick = b.elapsed := by
  obtain ⟨hline, htick⟩ := h
  simp only [ticksPerLine, linesPerFrame, preparing] at *
  omega

namespace Background

variable {g g' : Background} {n : Nat}

theorem Alike.of_eq (h : g = g') : Alike n g g' := by
  subst h
  exact ⟨fun _ => rfl, fun _ => rfl, fun _ => rfl, fun _ => rfl⟩

theorem Alike.start (g g' : Background) : Alike 0 g g' where
  tile h := absurd h (by decide)
  palette h := absurd h (by decide)
  planeLow h := absurd h (by decide)
  all h := absurd h (by decide)

/-- The ticks that fetch the first tile make the backgrounds agree bit by bit. -/
theorem Alike.fetch (h : Alike n g g') (h₁ : 322 ≤ n + 1) (h₂ : n + 1 ≤ 328) :
    Alike (n + 1) (g.fetch cart m r (n + 1)) (g'.fetch cart m r (n + 1)) := by
  have haddress (hn : 322 ≤ n) : g.planeAddress r = g'.planeAddress r := by
    rw [planeAddress, h.tile hn, planeAddress]
  unfold Background.fetch
  split
  · refine ⟨fun _ => rfl, fun hle => ?_, fun hle => ?_, fun hle => ?_⟩ <;> omega
  · exact ⟨fun _ => h.tile (by omega), fun _ => rfl, fun hle => absurd hle (by omega),
      fun hle => absurd hle (by omega)⟩
  · refine ⟨fun _ => h.tile (by omega), fun _ => h.palette (by omega), fun _ => ?_,
      fun hle => absurd hle (by omega)⟩
    unfold fetchLow
    rw [haddress (by omega)]
  · obtain rfl : n = 327 := by omega
    apply of_eq
    unfold fetchHigh loadFirst
    simp only [if_true]
    rw [haddress (by decide), h.tile (by decide), h.palette (by decide), h.planeLow (by decide)]
  · rename_i h2 h4 h6 h0
    replace h2 : (n + 1) % 8 ≠ 2 := h2
    replace h4 : (n + 1) % 8 ≠ 4 := h4
    replace h6 : (n + 1) % 8 ≠ 6 := h6
    replace h0 : (n + 1) % 8 ≠ 0 := h0
    exact ⟨fun _ => h.tile (by omega), fun _ => h.palette (by omega),
      fun _ => h.planeLow (by omega), fun hle => absurd hle (by omega)⟩

theorem Alike.share (hb : b.OnCourse) (hn : b.elapsed = n + 1) (h : Alike n g g') :
    Alike b.elapsed (g.share cart m r b) (g'.share cart m r b) := by
  rcases Nat.lt_or_ge n 328 with hlt | hge
  · obtain ⟨hline, htick⟩ := hb.first_line (by omega)
    have hdraws : ¬ b.Draws := fun hd => absurd (hline ▸ hd.1) (by decide)
    unfold Background.share
    rw [if_neg hdraws, if_neg hdraws]
    by_cases hfetch : 322 ≤ n + 1
    · have hprefetches : b.Prefetches := ⟨.inr hline, by omega, by omega⟩
      rw [if_pos hprefetches, if_pos hprefetches, htick, hn]
      exact h.fetch hfetch hlt
    · rw [hn]
      refine ⟨fun hle => ?_, fun hle => ?_, fun hle => ?_, fun hle => ?_⟩ <;> omega
  · rw [h.all hge]
    exact .of_eq rfl

end Background

/-! ### Sprites -/

namespace SpriteUnit

structure SameFound (u u' : SpriteUnit) : Prop where
  count : u.foundCount = u'.foundCount
  zero : u.foundZero = u'.foundZero
  entry : ∀ k : Fin 8, k.val < u.foundCount → u.found[k] = u'.found[k]

/-- The slots agree in what has been filled of them. -/
structure SameFilling (t : Nat) (u u' : SpriteUnit) : Prop where
  takenUp : TakenUp t u ∧ TakenUp t u'
  slot : ∀ k : Fin 8, k.val < u.foundCount → Filled (u'.slot k) (stepsBy t k) (u.slot k)

structure SameSlots (u u' : SpriteUnit) : Prop where
  count : u.slotCount = u'.slotCount
  zero : u.slotZero = u'.slotZero
  slot : ∀ k : Fin 8, k.val < u.slotCount → u.slot k = u'.slot k

/-- The sprites agree in what later ticks look at. -/
structure Alike (b : Beam) (u u' : SpriteUnit) : Prop where
  found : 1 ≤ b.elapsed → SameFound u u'
  none : b.line = Beam.preparing → 1 ≤ b.tick → u.foundCount = 0
  filling : b.line < 240 → SameFilling b.tick u u'
  slots : b.line < 240 → b.tick ≤ 256 → SameSlots u u'

variable {u u' : SpriteUnit} {c : Control} {t n : Nat}

theorem SameFound.add (h : SameFound u u') (i : Fin 64) (f : FoundSprite) :
    SameFound (u.add i f) (u'.add i f) := by
  by_cases hroom : u.foundCount < 8
  · have hroom' : u'.foundCount < 8 := h.count ▸ hroom
    unfold SpriteUnit.add
    rw [dif_pos hroom, dif_pos hroom']
    refine ⟨congrArg (· + 1) h.count, congrArg (· || i == 0) h.zero, ?_⟩
    intro k hk
    replace hk : k.val < u.foundCount + 1 := hk
    show (u.found.set u.foundCount f hroom)[k.val] = (u'.found.set u'.foundCount f hroom')[k.val]
    rw [Vector.getElem_set, Vector.getElem_set, ← h.count]
    split
    · rfl
    · exact h.entry k (by omega)
  · have hroom' : ¬ u'.foundCount < 8 := h.count ▸ hroom
    unfold SpriteUnit.add
    rw [dif_neg hroom, dif_neg hroom']
    exact h

theorem SameFound.find (h : SameFound u u') : SameFound (u.find m c b) (u'.find m c b) := by
  unfold SpriteUnit.find
  split
  · exact ⟨h.count, h.zero, fun _ _ => rfl⟩
  · split
    · exact h.add _ _
    · exact h

theorem SameFound.advance (h : SameFound u u') : SameFound u.advance u'.advance := by
  rw [advance_eq u, advance_eq u']
  exact ⟨h.count, h.zero, h.entry⟩

theorem SameFound.overflows (h : SameFound u u') : u.overflows m c b = u'.overflows m c b := by
  unfold SpriteUnit.overflows isFull
  rw [h.count]

theorem SameFound.load (h : SameFound u u') :
    SameFound (u.load cart m r t) (u'.load cart m r t) := by
  obtain ⟨hlist, hcount, hzero⟩ := found_load cart m r t u
  obtain ⟨hlist', hcount', hzero'⟩ := found_load cart m r t u'
  refine ⟨?_, ?_, ?_⟩
  · rw [hcount, hcount', h.count]
  · rw [hzero, hzero', h.zero]
  · intro k hk
    rw [hlist, hlist']
    exact h.entry k (hcount ▸ hk)

theorem SameFilling.start (h : t ≤ 257) : SameFilling t u u' where
  takenUp := ⟨.idle (.inl h), .idle (.inl h)⟩
  slot _ _ := .idle h

theorem SameFilling.rest (h : SameFilling t u u') (ht : 320 ≤ t) : SameFilling (t + 1) u u' where
  takenUp := ⟨.idle (.inr (Nat.lt_succ_of_le ht)), .idle (.inr (Nat.lt_succ_of_le ht))⟩
  slot k hk := (h.slot k hk).rest ht

theorem SameFilling.load (hfound : SameFound u u') (h : SameFilling t u u') (h₁ : 257 ≤ t)
    (h₂ : t < 320) :
    SameFilling (t + 1) (u.load cart m r (t + 1)) (u'.load cart m r (t + 1)) where
  takenUp := ⟨h.takenUp.1.load h₁ h₂, h.takenUp.2.load h₁ h₂⟩
  slot k hk := by
    rw [(found_load cart m r (t + 1) u).2.1] at hk
    have hk' : k.val < u'.foundCount := hfound.count ▸ hk
    have htaken (hlt : 257 + 8 * k.val < t) (hle : t < 265 + 8 * k.val) : SameTaken u u' := by
      have hu := h.takenUp.1 k hk hlt hle
      rw [show u.found.get k = u'.found.get k from hfound.entry k hk] at hu
      exact hu.trans (h.takenUp.2 k hk' hlt hle).symm
    have hnext := (h.slot k hk).load cart m r hk h₁ h₂ htaken
    rw [slot_load u' k h₂]
    simp only [hk', and_true]
    exact hnext

theorem SameSlots.start (hfound : SameFound u u') (h : SameFilling 340 u u') :
    SameSlots u.startLine u'.startLine where
  count := hfound.count
  zero := hfound.zero
  slot k hk := by
    have hlt := k.isLt
    apply (h.slot k hk).eq
    unfold stepsBy
    omega

theorem SameSlots.draw (h : SameSlots u u') :
    SameSlots (u.find m c b).advance (u'.find m c b).advance := by
  obtain ⟨hslots, hcount, hzero⟩ := u.find_slots (m := m) c b
  obtain ⟨hslots', hcount', hzero'⟩ := u'.find_slots (m := m) c b
  have hcounts : (u.find m c b).slotCount = (u'.find m c b).slotCount := by
    rw [hcount, hcount', h.count]
  have hzeros : (u.find m c b).slotZero = (u'.find m c b).slotZero := by
    rw [hzero, hzero', h.zero]
  rw [advance_eq (u.find m c b), advance_eq (u'.find m c b)]
  refine ⟨hcounts, hzeros, ?_⟩
  intro k hk
  replace hk : k.val < (u.find m c b).slotCount := hk
  have hslot : (u.find m c b).slot k = (u'.find m c b).slot k :=
    calc (u.find m c b).slot k = u.slot k := congrArg (·[k]) hslots
      _ = u'.slot k := h.slot k (hcount ▸ hk)
      _ = (u'.find m c b).slot k := (congrArg (·[k]) hslots').symm
  show (u.find m c b).advance.slot k = (u'.find m c b).advance.slot k
  rw [slot_advance _ hk, slot_advance _ (hcounts ▸ hk), hslot]

theorem SameSlots.front (h : SameSlots u u') : u.front = u'.front := by
  have hshown : (fun k : Fin 8 => decide (k.val < u.slotCount) && (u.slot k).isOpaque) =
      fun k : Fin 8 => decide (k.val < u'.slotCount) && (u'.slot k).isOpaque := by
    funext k
    rw [← h.count]
    by_cases hk : k.val < u.slotCount
    · rw [h.slot k hk]
    · rw [decide_eq_false hk, Bool.false_and, Bool.false_and]
  unfold SpriteUnit.front
  rw [hshown, h.count]

theorem lt_of_front {k : Fin 8} (h : u.front = some k) : k.val < u.slotCount := by
  unfold SpriteUnit.front at h
  split at h
  · exact nomatch h
  · have hk := List.find?_some h
    rw [Bool.and_eq_true, decide_eq_true_eq] at hk
    exact hk.1

end SpriteUnit

namespace Beam

theorem next_tick (h : b.next.tick ≠ 0) : b.next.line = b.line ∧ b.next.tick = b.tick + 1 := by
  unfold next at *
  split at h
  · rename_i hlt
    rw [if_pos hlt]
    exact ⟨rfl, rfl⟩
  · exact absurd rfl h

theorem OnCourse.next_start (hb : b.OnCourse) (h : b.next.tick = 0) :
    b.tick = 340 ∧ (b.next.line = 0 ∧ b.line = preparing ∨ b.next.line = b.line + 1) := by
  have htick : b.tick < 341 := by
    rw [hb.2]
    exact Nat.mod_lt _ (by decide)
  have hline := hb.line_le
  unfold Beam.next at *
  split at h
  · exact absurd h (Nat.succ_ne_zero _)
  · rename_i hge
    rw [if_neg hge]
    simp only [ticksPerLine, linesPerFrame, preparing] at *
    refine ⟨by omega, ?_⟩
    split <;> omega

end Beam

namespace SpriteUnit

variable {u u' : SpriteUnit}

theorem Alike.start (u u' : SpriteUnit) : Alike .start u u' where
  found h := absurd h (by decide)
  none _ h := absurd h (by decide)
  filling h := absurd h (by decide)
  slots h := absurd h (by decide)

theorem elapsed_pos (hb : b.OnCourse) (h : b.line < 240 ∨ 1 ≤ b.tick) : 1 ≤ b.elapsed := by
  obtain ⟨hline, htick⟩ := hb
  simp only [ticksPerLine, linesPerFrame, Beam.preparing] at *
  omega

theorem Alike.visible (hb : b.OnCourse) (hline : b.next.line < 240) (h : Alike b u u') :
    Alike b.next (u.share cart m r b.next) (u'.share cart m r b.next) := by
  have hnone (v : SpriteUnit) : b.next.line = Beam.preparing → 1 ≤ b.next.tick →
      v.foundCount = 0 := fun hp => absurd (hp ▸ hline) (by decide)
  by_cases hzero : b.next.tick = 0
  · obtain ⟨htick, hbefore⟩ := hb.next_start hzero
    have hfound := h.found (elapsed_pos hb (.inr (htick ▸ by decide)))
    rw [share_starts hline hzero, share_starts hline hzero]
    refine ⟨fun _ => ⟨rfl, rfl, nofun⟩, hnone _, fun _ => .start (by omega), fun _ _ => ?_⟩
    rcases hbefore with ⟨-, hpreparing⟩ | hprevious
    · have hcount : u.foundCount = 0 := h.none hpreparing (by omega)
      refine ⟨hfound.count, hfound.zero, fun k hk => ?_⟩
      replace hk : k.val < u.foundCount := hk
      omega
    · have hfilling := h.filling (by omega)
      rw [htick] at hfilling
      exact .start hfound hfilling
  · obtain ⟨hsame, htick⟩ := Beam.next_tick hzero
    have hline' : b.line < 240 := hsame ▸ hline
    have hfound := h.found (elapsed_pos hb (.inl hline'))
    have hfilling := h.filling hline'
    by_cases hdraws : b.next.Draws
    · rw [share_draws hdraws, share_draws hdraws]
      have htick256 := hdraws.2.2
      exact ⟨fun _ => hfound.find.advance, hnone _, fun _ => .start (by omega),
        fun _ _ => (h.slots hline' (by omega)).draw⟩
    · have hlate : 256 < b.next.tick := by
        by_contra hle
        exact hdraws ⟨hline, by omega, by omega⟩
      have hslots (v v' : SpriteUnit) : b.next.line < 240 → b.next.tick ≤ 256 → SameSlots v v' :=
        fun _ hle => absurd hle (by omega)
      by_cases hload : 258 ≤ b.next.tick ∧ b.next.tick ≤ 320
      · rw [share_loads hline hload.1 hload.2, share_loads hline hload.1 hload.2]
        refine ⟨fun _ => hfound.load, hnone _, fun _ => ?_, hslots _ _⟩
        rw [htick]
        exact hfilling.load hfound (by omega) (by omega)
      · have hrest : b.next.tick = 257 ∨ 320 < b.next.tick := by omega
        rw [share_rests hline hrest, share_rests hline hrest]
        refine ⟨fun _ => hfound, hnone _, fun _ => ?_, hslots _ _⟩
        rcases hrest with heq | hlt
        · exact .start (Nat.le_of_eq heq)
        · rw [htick]
          exact hfilling.rest (by omega)

/-- Elsewhere the sprites are left alone, or forgotten. -/
theorem Alike.hidden (hb : b.OnCourse) (hline : 240 ≤ b.next.line) (h : Alike b u u') :
    Alike b.next (u.share cart m r b.next) (u'.share cart m r b.next) := by
  have hvisible : ¬ b.next.line < 240 := Nat.not_lt.mpr hline
  have hdraws : ¬ b.next.Draws := fun hd => hvisible hd.1
  unfold SpriteUnit.share
  rw [if_neg hdraws, if_neg hdraws, if_neg hvisible, if_neg hvisible]
  by_cases hclear : b.next.line = Beam.preparing ∧ (b.next.tick = 1 ∨ b.next.tick = 320)
  · rw [if_pos hclear, if_pos hclear]
    exact ⟨fun _ => ⟨rfl, rfl, nofun⟩, fun _ _ => rfl, fun hlt => absurd hlt hvisible,
      fun hlt => absurd hlt hvisible⟩
  · rw [if_neg hclear, if_neg hclear]
    refine ⟨fun _ => ?_, fun hp ht => ?_, fun hlt => absurd hlt hvisible,
      fun hlt => absurd hlt hvisible⟩
    · apply h.found
      by_contra hstart
      obtain ⟨hfirst, htick⟩ := hb.first_line (by omega)
      have hlt : b.tick + 1 < ticksPerLine := by
        show b.tick + 1 < 341
        omega
      have hone : b.tick + 1 = 1 := by omega
      apply hclear
      unfold Beam.next
      rw [if_pos hlt]
      exact ⟨hfirst, .inl hone⟩
    · obtain ⟨hsame, htick⟩ := Beam.next_tick (Nat.ne_of_gt ht)
      exact h.none (hsame ▸ hp) (by omega)

theorem Alike.share (hb : b.OnCourse) (h : Alike b u u') :
    Alike b.next (u.share cart m r b.next) (u'.share cart m r b.next) := by
  rcases Nat.lt_or_ge b.next.line 240 with hline | hline
  · exact h.visible hb hline
  · exact h.hidden hb hline

end SpriteUnit

/-! ### Rasters -/

namespace Raster

/-- The rasters differ only in what no later tick looks at. -/
structure Alike (q q' : Raster) : Prop where
  beam : q.beam = q'.beam
  onCourse : q.beam.OnCourse
  background : Background.Alike q.beam.elapsed q.background q'.background
  sprites : SpriteUnit.Alike q.beam q.sprites q'.sprites

theorem alike_beginFrame (q q' : Raster) : q.beginFrame.Alike q'.beginFrame where
  beam := rfl
  onCourse := Beam.onCourse_start
  background := .start _ _
  sprites := .start _ _

variable {q q' : Raster}

theorem Alike.pixel (h : q.Alike q') (hdraws : q.beam.next.Draws) :
    q.moved.colour m r = q'.moved.colour m r ∧ q.moved.hitsZero r = q'.moved.hitsZero r := by
  obtain ⟨hsame, htick⟩ := Beam.next_tick (Nat.ne_of_gt hdraws.2.1)
  have hline : q.beam.line < 240 := hsame ▸ hdraws.1
  have hle := hdraws.2.2
  have hslots := h.sprites.slots hline (by omega)
  have hbackground : q.background = q'.background := by
    apply h.background.all
    have hcourse := h.onCourse.1
    simp only [ticksPerLine, linesPerFrame, Beam.preparing] at hcourse
    omega
  have hdot : q.moved.backgroundDot r = q'.moved.backgroundDot r := by
    unfold backgroundDot column moved
    rw [hbackground, h.beam]
  have hsprite : q.moved.spriteDot r = q'.moved.spriteDot r := by
    unfold spriteDot column moved
    rw [hslots.front, h.beam]
  constructor
  · unfold colour
    rw [hdot, hsprite]
    cases hfront : q'.moved.spriteDot r with
    | none => rfl
    | some k =>
      have hk : k.val < q.sprites.slotCount := by
        rw [← hsprite] at hfront
        unfold spriteDot at hfront
        split at hfront
        · exact SpriteUnit.lt_of_front hfront
        · cases hfront
      have hslot : q.moved.sprites.slot k = q'.moved.sprites.slot k := hslots.slot k hk
      simp only [hslot]
  · have hzero : q.moved.sprites.slotZero = q'.moved.sprites.slotZero := hslots.zero
    have hbeam : q.moved.beam = q'.moved.beam := congrArg Beam.next h.beam
    unfold hitsZero
    rw [hdot, hsprite, hzero, hbeam]

end Raster

namespace Scan

variable [PixelSink σ] {q q' : Raster}

/-- **A tick does not tell them apart**, and leaves them alike. -/
theorem step_alike (cart : κ) (m : Memory) (h : q.Alike q') (regs : Registers) (sink : σ) :
    (step cart m ⟨q, regs, sink⟩).raster.Alike (step cart m ⟨q', regs, sink⟩).raster ∧
      (step cart m ⟨q, regs, sink⟩).regs = (step cart m ⟨q', regs, sink⟩).regs ∧
        (step cart m ⟨q, regs, sink⟩).sink = (step cart m ⟨q', regs, sink⟩).sink := by
  have hline : q.beam.next.line ≤ Beam.preparing := h.onCourse.next.line_le
  have hline' : q'.beam.next.line ≤ Beam.preparing := h.beam ▸ hline
  rw [step_shares (s := ⟨q, regs, sink⟩) hline, step_shares (s := ⟨q', regs, sink⟩) hline']
  unfold shares
  dsimp only
  rw [← h.beam]
  refine ⟨⟨rfl, h.onCourse.next, ?_, ?_⟩, ?_, ?_⟩
  · exact h.background.share h.onCourse.next (Beam.next_elapsed _)
  · exact h.sprites.share h.onCourse
  · by_cases hdraws : q.beam.next.Draws
    · have hhit := (h.pixel (m := m) (r := regs) hdraws).2
      have hsame := (Beam.next_tick (Nat.ne_of_gt hdraws.2.1)).1
      have hpos := SpriteUnit.elapsed_pos h.onCourse (.inl (hsame ▸ hdraws.1))
      rw [hhit, (h.sprites.found hpos).overflows]
    · unfold Registers.statusShare
      simp only [if_neg hdraws]
  · unfold Beam.sinkShare
    split
    · rename_i hdraws
      rw [(h.pixel hdraws).1]
    · rfl

end Scan

end Famicom.Picture
