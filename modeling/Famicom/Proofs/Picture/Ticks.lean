import Famicom.Picture.Raster

/-!
# Laws of ticks

Drawing a number of ticks is drawing some of them and then the rest (`run_add`), and the beam's
place is a function of the ticks drawn since the frame was begun (`Beam.OnCourse`).  A tick looks at
the cartridge's pattern tables only (`run_congr`), and up to the tick at which vblank begins it
neither looks at a pending interrupt nor raises one (`run_setNmi`).
-/

namespace Famicom.Picture

namespace Beam

/-- The beam is where the ticks since the beginning of the frame have brought it. -/
def OnCourse (b : Beam) : Prop :=
  b.line = (preparing + b.elapsed / ticksPerLine) % linesPerFrame ∧
    b.tick = b.elapsed % ticksPerLine

theorem onCourse_start : start.OnCourse := ⟨rfl, rfl⟩

theorem next_elapsed (b : Beam) : b.next.elapsed = b.elapsed + 1 := by
  unfold next
  split <;> rfl

theorem next_line_le {b : Beam} (h : b.line ≤ preparing) : b.next.line ≤ preparing := by
  unfold next preparing linesPerFrame at *
  split
  · exact h
  · simp only
    split <;> omega

theorem OnCourse.next {b : Beam} (h : b.OnCourse) : b.next.OnCourse := by
  obtain ⟨hline, htick⟩ := h
  unfold Beam.next OnCourse at *
  simp only [ticksPerLine, linesPerFrame, preparing] at *
  split
  · constructor <;> simp only <;> omega
  · constructor
    · simp only
      split <;> omega
    · simp only
      omega

/-- The ticks after which vblank begins. -/
def vblankStart : Nat := 82523

theorem OnCourse.vblankStart_le {b : Beam} (h : b.OnCourse) (hline : b.line = 241)
    (htick : b.tick = 1) : vblankStart ≤ b.elapsed := by
  obtain ⟨hline', htick'⟩ := h
  simp only [ticksPerLine, linesPerFrame, preparing, vblankStart] at *
  omega

end Beam

namespace Scan

variable {σ : Type} {m : Memory}

/-! ### What the parts of a tick leave alone -/

def setNmi (v : Bool) (s : Scan σ) : Scan σ := { s with regs := { s.regs with nmiPending := v } }

/-- A part of a tick that leaves the beam alone and has nothing to do with interrupts. -/
structure Tame (f : Scan σ → Scan σ) : Prop where
  beam (s : Scan σ) : (f s).raster.beam = s.raster.beam
  setNmi (v : Bool) (s : Scan σ) : f (s.setNmi v) = (f s).setNmi v

@[simp] theorem setNmi_raster (v : Bool) (s : Scan σ) : (s.setNmi v).raster = s.raster := rfl

@[simp] theorem setNmi_ite (v : Bool) (P : Prop) [Decidable P] (s t : Scan σ) :
    (if P then s else t).setNmi v = if P then s.setNmi v else t.setNmi v := by
  split <;> rfl

@[simp] theorem setNmi_dite (v : Bool) (P : Prop) [Decidable P] (s : P → Scan σ) (t : ¬P → Scan σ) :
    (if h : P then s h else t h).setNmi v = if h : P then (s h).setNmi v else (t h).setNmi v := by
  split <;> rfl

theorem tame_scroll {f : Registers → ScrollAddress}
    (hf : ∀ v r, f { r with nmiPending := v } = f r) : Tame (scroll (σ := σ) f) where
  beam s := by
    unfold scroll
    split <;> rfl
  setNmi v s := by
    have hr : f (s.setNmi v).regs = f s.regs := hf v s.regs
    unfold scroll
    show (if s.regs.mask.rendering then _ else _) = _
    split
    · rw [hr]
      rfl
    · rfl

theorem tame_evaluate (index : Fin 64) : Tame (evaluate (σ := σ) m index) where
  beam s := by
    unfold evaluate
    simp only
    split
    · rfl
    · split <;> rfl
  setNmi v s := by
    simp only [evaluate, setNmi_ite, setNmi_raster]
    rfl

theorem tame_findSprites : Tame (findSprites (σ := σ) m) where
  beam s := by
    unfold findSprites
    simp only
    split
    · rfl
    · split
      · split
        · exact (tame_evaluate _).beam s
        · rfl
      · rfl
  setNmi v s := by
    simp only [findSprites, setNmi_ite, setNmi_dite, setNmi_raster, (tame_evaluate _).setNmi]
    rfl

variable {κ : Type} [Cartridge κ] {cart : κ}

theorem tame_fetchBackground : Tame (fetchBackground (σ := σ) cart m) where
  beam s := by
    unfold fetchBackground
    split
    · rfl
    · rfl
    · rfl
    · exact (tame_scroll (f := fun r => r.v.right) fun _ _ => rfl).beam _
    · rfl
  setNmi v s := by
    unfold fetchBackground
    simp only [setNmi_raster]
    split
    · rfl
    · rfl
    · rfl
    · refine Eq.trans ?_ ((tame_scroll (f := fun r => r.v.right) fun _ _ => rfl).setNmi v _)
      rfl
    · rfl

theorem tame_fetchSprites : Tame (fetchSprites (σ := σ) cart m) where
  beam s := by
    unfold fetchSprites
    generalize s.raster.beam.tick - 257 = t
    simp only
    split <;> rfl
  setNmi v s := by
    unfold fetchSprites
    rw [setNmi_raster]
    generalize s.raster.beam.tick - 257 = t
    rw [setNmi_dite]
    rfl

theorem tame_prepare : Tame (prepare (σ := σ) cart m) where
  beam s := by
    unfold prepare
    simp only
    split
    · rfl
    · split
      · exact (tame_scroll (f := fun r => r.t) fun _ _ => rfl).beam _
      · split
        · exact tame_fetchBackground.beam s
        · rfl
  setNmi v s := by
    have hscroll := (tame_scroll (σ := σ) (f := fun r => r.t) fun _ _ => rfl).setNmi v
      (s.onSprites .clearCounts)
    simp only [prepare, setNmi_ite, setNmi_raster, tame_fetchBackground.setNmi, ← hscroll]
    rfl

/-! ### What shows of the cartridge -/

/-- Two cartridges show the same pattern tables. -/
def SamePatterns (cart cart' : κ) : Prop :=
  ∀ address, Cartridge.readPattern cart address = Cartridge.readPattern cart' address

variable {cart' : κ}

theorem read_congr (h : SamePatterns cart cart') (colours : UInt8) (address : UInt16) :
    m.read cart colours address = m.read cart' colours address := by
  unfold Memory.read
  simp only [h _]

theorem fetchBackground_congr (h : SamePatterns cart cart') (s : Scan σ) :
    s.fetchBackground cart m = s.fetchBackground cart' m := by
  simp only [fetchBackground, Background.fetchTile, Background.fetchPalette, Background.fetchLow,
    Background.fetchHigh, read_congr h]

theorem fetchSprites_congr (h : SamePatterns cart cart') (s : Scan σ) :
    s.fetchSprites cart m = s.fetchSprites cart' m := by
  have hfetch (u : SpriteUnit) (slot : Fin 8) (n : Nat) :
      u.fetch cart m s.regs slot n = u.fetch cart' m s.regs slot n := by
    simp only [SpriteUnit.fetch, read_congr h]
  simp only [fetchSprites, hfetch]

variable [PixelSink σ]

/-! ### Ticks -/

theorem tame_emit : Tame (emit (σ := σ) m) where
  beam s := rfl
  setNmi v s := by
    obtain ⟨⟨beam, background, sprites⟩, regs, sink⟩ := s
    have hcolour : Raster.colour ⟨beam, background, sprites⟩ m { regs with nmiPending := v } =
        Raster.colour ⟨beam, background, sprites⟩ m regs := rfl
    have hhit : Raster.hitsZero ⟨beam, background, sprites⟩ { regs with nmiPending := v } =
        Raster.hitsZero ⟨beam, background, sprites⟩ regs := rfl
    simp only [emit, setNmi, hcolour, hhit]
    split <;> rfl

theorem tame_visible : Tame (visible (σ := σ) cart m) where
  beam s := by
    unfold visible
    simp only
    split
    · rfl
    · split
      · rw [tame_fetchBackground.beam, tame_emit.beam, tame_findSprites.beam]
      · split
        · exact (tame_scroll (f := fun r => r.v.down.copyHorizontal r.t) fun _ _ => rfl).beam s
        · split
          · exact tame_fetchSprites.beam s
          · split
            · exact tame_fetchBackground.beam s
            · rfl
  setNmi v s := by
    have hscroll := (tame_scroll (σ := σ) (f := fun r => r.v.down.copyHorizontal r.t)
      fun _ _ => rfl).setNmi v s
    simp only [visible, setNmi_ite, setNmi_raster, tame_findSprites.setNmi, tame_emit.setNmi,
      tame_fetchBackground.setNmi, tame_fetchSprites.setNmi, hscroll]
    rfl

theorem step_beam (s : Scan σ) : (s.step cart m).raster.beam = s.raster.beam.next := by
  unfold step
  simp only
  split
  · exact tame_visible.beam _
  · split
    · split <;> rfl
    · split
      · split <;> rfl
      · exact tame_prepare.beam _

theorem step_setNmi (v : Bool) (s : Scan σ)
    (h : ¬ (s.raster.beam.next.line = 241 ∧ s.raster.beam.next.tick = 1)) :
    (s.setNmi v).step cart m = (s.step cart m).setNmi v := by
  have hstep (t : Scan σ) (ht : ¬ (t.raster.beam.next.line = 241 ∧ t.raster.beam.next.tick = 1)) :
      t.step cart m =
        let t := { t with raster := { t.raster with beam := t.raster.beam.next } }
        if t.raster.beam.line < 240 then t.visible cart m
        else if t.raster.beam.line = 240 then
          if t.raster.beam.tick = 0 then { t with sink := PixelSink.frameComplete t.sink } else t
        else if t.raster.beam.line < Beam.preparing then t
        else t.prepare cart m := by
    simp only [step, if_neg ht]
  rw [hstep s h, hstep (s.setNmi v) h]
  simp only [setNmi_ite, ← tame_visible.setNmi, ← tame_prepare.setNmi]
  rfl

theorem run_add (n k : Nat) (s : Scan σ) :
    run cart m (n + k) s = run cart m k (run cart m n s) := by
  induction n generalizing s with
  | zero => rw [Nat.zero_add]; rfl
  | succ n ih =>
    rw [Nat.succ_add]
    exact ih _

theorem run_elapsed (n : Nat) (s : Scan σ) :
    (run cart m n s).raster.beam.elapsed = s.raster.beam.elapsed + n := by
  induction n generalizing s with
  | zero => rfl
  | succ n ih =>
    rw [run, ih, step_beam, Beam.next_elapsed]
    omega

theorem run_onCourse (n : Nat) {s : Scan σ} (h : s.raster.beam.OnCourse) :
    (run cart m n s).raster.beam.OnCourse := by
  induction n generalizing s with
  | zero => exact h
  | succ n ih =>
    refine ih ?_
    rw [step_beam]
    exact h.next

/-- Before vblank begins, ticks have nothing to do with a pending interrupt. -/
theorem run_setNmi (v : Bool) (n : Nat) {s : Scan σ} (h : s.raster.beam.OnCourse)
    (hn : s.raster.beam.elapsed + n < Beam.vblankStart) :
    run cart m n (s.setNmi v) = (run cart m n s).setNmi v := by
  induction n generalizing s with
  | zero => rfl
  | succ n ih =>
    have hnot : ¬ (s.raster.beam.next.line = 241 ∧ s.raster.beam.next.tick = 1) := by
      intro hv
      have hle := h.next.vblankStart_le hv.1 hv.2
      rw [Beam.next_elapsed] at hle
      omega
    rw [run, step_setNmi v s hnot, ih, run]
    · rw [step_beam]
      exact h.next
    · rw [step_beam, Beam.next_elapsed]
      omega

theorem run_nmiPending (n : Nat) {s : Scan σ} (h : s.raster.beam.OnCourse)
    (hn : s.raster.beam.elapsed + n < Beam.vblankStart) :
    (run cart m n s).regs.nmiPending = s.regs.nmiPending :=
  congrArg (fun t => t.regs.nmiPending) (run_setNmi s.regs.nmiPending n h hn)

theorem step_congr (h : SamePatterns cart cart') (s : Scan σ) : s.step cart m = s.step cart' m := by
  simp only [step, visible, prepare, fetchBackground_congr h, fetchSprites_congr h]

/-- Only the pattern tables of the cartridge show in the picture. -/
theorem run_congr (h : SamePatterns cart cart') (n : Nat) (s : Scan σ) :
    run cart m n s = run cart' m n s := by
  induction n generalizing s with
  | zero => rfl
  | succ n ih => rw [run, run, step_congr h, ih]

end Scan

end Famicom.Picture
