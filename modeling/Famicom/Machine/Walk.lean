/-!
# Walking through cycles

Something that runs in steps, each of which keeps it busy for some cycles, is walked through a
number of cycles: at a cycle at which it is idle the next step starts.  The last step may keep it
busy beyond the end; a step that cannot run ends the walk.
-/

namespace Famicom

/-- How a step went. -/
inductive Progress where
  /-- it ran and took these cycles -/
  | ran (cycles : Nat)
  /-- it was taken back, and can run once the picture is up to date -/
  | waits
  /-- the processor does not run any more, and stands at this address -/
  | halted (pc : UInt16)
  deriving DecidableEq, Repr

/-- How a walk ended. -/
inductive Outcome where
  /-- all cycles were walked through, and the last step goes on for `excess` more -/
  | completed (excess : Nat)
  /-- a step was taken back -/
  | waits
  /-- the processor does not run any more, and stands at this address -/
  | halted (pc : UInt16)
  deriving DecidableEq, Repr

/-- Walks through `n` cycles, being busy for the first `busy` of them. -/
@[specialize] def walk {σ : Type} (step : σ → Progress × σ) : (n busy : Nat) → σ → Outcome × σ
  | 0, busy, s => (.completed busy, s)
  | n + 1, busy + 1, s => walk step n busy s
  | n + 1, 0, s =>
    match step s with
    | (.ran cycles, s) => walk step n (cycles - 1) s
    | (.waits, s) => (.waits, s)
    | (.halted pc, s) => (.halted pc, s)

/-- A walk that begins busy begins where it is idle, or is over before. -/
theorem walk_busy {σ : Type} (step : σ → Progress × σ) (n busy : Nat) (s : σ) :
    walk step n busy s = walk step (n - busy) (busy - n) s := by
  induction n generalizing busy with
  | zero => simp
  | succ n ih =>
    cases busy with
    | zero => rw [Nat.sub_zero, Nat.zero_sub]
    | succ busy =>
      rw [Nat.add_sub_add_right, Nat.add_sub_add_right]
      exact ih busy

/-- A walk makes its first step where it is idle, and looks at nothing else. -/
theorem walk_succ_congr {σ : Type} {step : σ → Progress × σ} {s t : σ} (h : step s = step t)
    (n : Nat) : walk step (n + 1) 0 s = walk step (n + 1) 0 t := by
  rw [walk, walk, h]

/-- A walk that is not over and whose next step runs goes on where that step ends. -/
theorem walk_of_ran {σ : Type} {step : σ → Progress × σ} {s t : σ} {cycles past n : Nat}
    (h : step s = (.ran cycles, t)) (hlt : past < n) (hpos : 0 < cycles) :
    walk step (n - past) (past - n) s =
      walk step (n - (past + cycles)) (past + cycles - n) t := by
  obtain ⟨k, hk⟩ : ∃ k, n - past = k + 1 := ⟨n - past - 1, by omega⟩
  rw [hk, Nat.sub_eq_zero_of_le (Nat.le_of_lt hlt), walk, h]
  show walk step k (cycles - 1) t = _
  rw [walk_busy]
  congr 1 <;> omega

/-- What every step keeps, a walk keeps. -/
theorem walk_keeps {σ : Type} {step : σ → Progress × σ} {P : σ → Prop}
    (hstep : ∀ s, P s → P (step s).2) (n busy : Nat) {s : σ} (h : P s) :
    P (walk step n busy s).2 := by
  induction n generalizing busy s with
  | zero => exact h
  | succ n ih =>
    cases busy with
    | succ busy => exact ih busy h
    | zero =>
      have hs := hstep s h
      simp only [walk]
      split <;> rename_i heq <;> rw [heq] at hs
      · exact ih _ hs
      · exact hs
      · exact hs

/-- Walks whose steps go alike go alike. -/
theorem walk_alike {σ τ : Type} {step : σ → Progress × σ} {step' : τ → Progress × τ}
    {R : σ → τ → Prop}
    (hstep : ∀ s t, R s t → (step' t).1 = (step s).1 ∧ R (step s).2 (step' t).2) (n busy : Nat)
    {s : σ} {t : τ} (h : R s t) :
    (walk step' n busy t).1 = (walk step n busy s).1 ∧
      R (walk step n busy s).2 (walk step' n busy t).2 := by
  induction n generalizing busy s t with
  | zero => exact ⟨rfl, h⟩
  | succ n ih =>
    cases busy with
    | succ busy => exact ih busy h
    | zero =>
      obtain ⟨heq, hr⟩ := hstep s t h
      rcases hs : step s with ⟨p, s'⟩
      rcases ht : step' t with ⟨p', t'⟩
      rw [hs, ht] at heq hr
      cases heq
      simp only [walk, hs, ht]
      cases p with
      | ran k => exact ih _ hr
      | waits => exact ⟨rfl, hr⟩
      | halted pc => exact ⟨rfl, hr⟩

/-- What no step looks at, a walk does not look at. -/
theorem walk_apart {σ ι : Type} {step : σ → Progress × σ} {f : σ → ι → σ}
    (hstep : ∀ s i, ∃ j, step (f s i) = ((step s).1, f (step s).2 j)) (n busy : Nat) (s : σ)
    (i : ι) :
    ∃ j, walk step n busy (f s i) = ((walk step n busy s).1, f (walk step n busy s).2 j) := by
  have hstep' (s t : σ) (h : ∃ i, t = f s i) :
      (step t).1 = (step s).1 ∧ ∃ j, (step t).2 = f (step s).2 j := by
    obtain ⟨i, rfl⟩ := h
    obtain ⟨j, hj⟩ := hstep s i
    rw [hj]
    exact ⟨rfl, j, rfl⟩
  obtain ⟨houtcome, j, hleft⟩ := walk_alike hstep' n busy ⟨i, rfl⟩
  exact ⟨j, Prod.ext houtcome hleft⟩

/-- Where no step is taken back, a walk does not end so. -/
theorem walk_ne_waits {σ : Type} {step : σ → Progress × σ} {P : σ → Prop}
    (hstep : ∀ s, P s → (step s).1 ≠ .waits ∧ P (step s).2) (n busy : Nat) {s : σ} (h : P s) :
    (walk step n busy s).1 ≠ .waits := by
  induction n generalizing busy s with
  | zero => simp [walk]
  | succ n ih =>
    cases busy with
    | succ busy => exact ih busy h
    | zero =>
      have hs := hstep s h
      simp only [walk]
      split <;> rename_i heq <;> rw [heq] at hs
      · exact ih _ hs.2
      · exact absurd rfl hs.1
      · simp

/-- Where every step runs, a walk is completed. -/
theorem walk_completes {σ : Type} {step : σ → Progress × σ} {P : σ → Prop}
    (hstep : ∀ s, P s → ∃ cycles t, step s = (.ran cycles, t) ∧ P t) (n busy : Nat) {s : σ}
    (h : P s) : ∃ excess t, walk step n busy s = (.completed excess, t) ∧ P t := by
  induction n generalizing busy s with
  | zero => exact ⟨busy, s, rfl, h⟩
  | succ n ih =>
    cases busy with
    | succ busy => exact ih busy h
    | zero =>
      obtain ⟨cycles, t, hs, ht⟩ := hstep s h
      rw [walk, hs]
      exact ih (cycles - 1) ht

end Famicom
