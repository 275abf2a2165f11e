import Famicom.Proofs.Machine.Cycles
import Famicom.Proofs.Machine.Instructions

/-!
# Bursts put together

A burst makes steps until their cycles have used up its budget, or one of them cannot run
(`Goes`).  The steps that it makes determine how it ends (`walk_eq_of_goes`).  With a greater budget
it begins with the same steps, so that it ends in the same way if one of them cannot run or the last
goes beyond this budget as well, and goes on where they end if there is more to come
(`burst_composes`).
-/

namespace Famicom

/-! ### The steps of a walk -/

section Walks

variable {σ : Type} {step : σ → Progress × σ} {s t u : σ} {k n r : Nat}

/-- From `s` to `t` in steps that all ran, and took `r` cycles together. -/
inductive Runs (step : σ → Progress × σ) (s : σ) : Nat → σ → Prop
  | here : Runs step s 0 s
  | ran {r k : Nat} {t u : σ} (h : Runs step s r t) (hs : step t = (.ran k, u)) :
    Runs step s (r + k) u

/-- How a walk of `n` cycles from `s` goes.  Each of its steps is begun before the end. -/
inductive Goes (step : σ → Progress × σ) (n : Nat) (s : σ) : Outcome × σ → Prop
  | nowhere (h : n = 0) : Goes step n s (.completed 0, s)
  | completed {r k : Nat} {t u : σ} (h : Runs step s r t) (hlt : r < n)
    (hs : step t = (.ran k, u)) (hle : n ≤ r + k) : Goes step n s (.completed (r + k - n), u)
  | waits {r : Nat} {t u : σ} (h : Runs step s r t) (hlt : r < n) (hs : step t = (.waits, u)) :
    Goes step n s (.waits, u)
  | halted {r : Nat} {t u : σ} {pc : UInt16} (h : Runs step s r t) (hlt : r < n)
    (hs : step t = (.halted pc, u)) : Goes step n s (.halted pc, u)

theorem walk_of_lt {past : Nat} (hlt : past < n) (t : σ) :
    walk step (n - past) 0 t =
      match step t with
      | (.ran k, u) => walk step (n - past - 1) (k - 1) u
      | (.waits, u) => (.waits, u)
      | (.halted pc, u) => (.halted pc, u) := by
  obtain ⟨i, hi⟩ : ∃ i, n - past = i + 1 := ⟨n - past - 1, by omega⟩
  rw [hi, walk]
  rfl

variable (hpos : ∀ s k t, step s = (.ran k, t) → 0 < k)

include hpos

/-- Up to its end, a walk goes on from where its last step has come to. -/
theorem walk_ran (hs : step t = (.ran k, u)) (hlt : r < n) :
    walk step (n - r) 0 t = walk step (n - (r + k)) (r + k - n) u := by
  have hwalk := walk_of_ran hs hlt (hpos _ _ _ hs)
  rwa [Nat.sub_eq_zero_of_le (Nat.le_of_lt hlt)] at hwalk

/-- After steps that do not reach its end, a walk goes on with the cycles that are left. -/
theorem Runs.walk_eq (h : Runs step s r t) (hlt : r < n) :
    walk step n 0 s = walk step (n - r) 0 t := by
  induction h with
  | here => rfl
  | @ran r k t u h hs ih =>
    have hbegun : r < n := Nat.lt_of_le_of_lt (Nat.le_add_right r k) hlt
    rw [ih hbegun, walk_ran hpos hs hbegun, Nat.sub_eq_zero_of_le (Nat.le_of_lt hlt)]

/-- **The steps determine the walk.** -/
theorem walk_eq_of_goes {result : Outcome × σ} (h : Goes step n s result) :
    walk step n 0 s = result := by
  cases h with
  | nowhere h => rw [h, walk]
  | completed h hlt hs hle =>
    rw [h.walk_eq hpos hlt, walk_ran hpos hs hlt, Nat.sub_eq_zero_of_le hle, walk]
  | waits h hlt hs => rw [h.walk_eq hpos hlt, walk_of_lt hlt, hs]
  | halted h hlt hs => rw [h.walk_eq hpos hlt, walk_of_lt hlt, hs]

theorem Runs.goes (h : Runs step s r t) (hlt : r < n) : ∃ result, Goes step n s result := by
  -- each step leaves fewer cycles to the end
  induction hleft : n - r using Nat.strongRecOn generalizing r t with
  | _ left ih =>
    rcases hs : step t with ⟨_ | _ | pc, u⟩
    case ran k =>
      rcases Nat.lt_or_ge (r + k) n with hmore | hle
      · have hk := hpos _ _ _ hs
        exact ih _ (by omega) (h.ran hs) hmore rfl
      · exact ⟨_, .completed h hlt hs hle⟩
    case waits => exact ⟨_, .waits h hlt hs⟩
    case halted => exact ⟨_, .halted h hlt hs⟩

theorem goes_walk (n : Nat) (s : σ) : Goes step n s (walk step n 0 s) := by
  obtain ⟨result, hresult⟩ : ∃ result, Goes step n s result := by
    rcases Nat.eq_zero_or_pos n with h | h
    · exact ⟨_, .nowhere h⟩
    · exact Runs.here.goes hpos h
  rwa [walk_eq_of_goes hpos hresult]

end Walks

/-! ### Bursts -/

namespace Machine

variable {κ : Type} [Cartridge κ] {m m' : Machine κ} {r : Nat}

theorem pos_of_step (m : Machine κ) (k : Nat) (m' : Machine κ) (h : m.step = (.ran k, m')) :
    0 < k :=
  Nat.lt_of_lt_of_le (by decide) (ran_of_step h).two_le

/-- Steps that ran are counted exactly. -/
theorem counters_of_runs (h : Runs step m r m') :
    m'.cpu.cycles.toNat = (m.cpu.cycles.toNat + r) % UInt32.size ∧
      m'.cpu.totalCycles = m.cpu.totalCycles + r := by
  induction h with
  | here => exact ⟨(Nat.mod_eq_of_lt (UInt32.toNat_lt_size _)).symm, rfl⟩
  | @ran r k t u h hs ih =>
    obtain ⟨hcycles, htotal⟩ := t.step_reported
    rw [hs] at hcycles htotal
    constructor
    · rw [hcycles, UInt32.toNat_add, UInt32.toNat_ofNat', ih.1]
      show ((m.cpu.cycles.toNat + r) % UInt32.size + k % UInt32.size) % UInt32.size = _
      rw [← Nat.add_mod, Nat.add_assoc]
    · rw [htotal, ih.2, Nat.add_assoc]
      rfl

/-- **Bursts compose.**  A burst that ends early ends so with every greater budget.  One that is
completed has run for some cycles, and its last step was begun before they reached the budget; both
counters have gone on by them.  With a budget up to these cycles the burst is the same, and with a
greater one it is followed by the burst of what is left. -/
theorem burst_composes (m : Machine κ) {b₁ b : Nat} (hle : b₁ ≤ b) :
    (∀ m₁, m.burst b₁ = (.waits, m₁) → m.burst b = (.waits, m₁)) ∧
    (∀ pc m₁, m.burst b₁ = (.halted pc, m₁) → m.burst b = (.halted pc, m₁)) ∧
    ∀ excess m₁, m.burst b₁ = (.completed excess, m₁) →
      ∃ r, Runs step m r m₁ ∧ r = b₁ + excess ∧
        (0 < b₁ → ∃ before last m₀, Runs step m before m₀ ∧ m₀.step = (.ran last, m₁) ∧
          r = before + last ∧ before < b₁) ∧
        m₁.cpu.cycles.toNat = (m.cpu.cycles.toNat + r) % UInt32.size ∧
        m₁.cpu.totalCycles = m.cpu.totalCycles + r ∧
        (b ≤ r → m.burst b = (.completed (r - b), m₁)) ∧
        (r < b → m.burst b = m₁.burst (b - r)) := by
  have hgoes := goes_walk pos_of_step b₁ m
  refine ⟨fun m₁ hm => ?_, fun pc m₁ hm => ?_, fun excess m₁ hm => ?_⟩ <;>
    rw [show walk step b₁ 0 m = _ from hm] at hgoes
  · cases hgoes with
    | waits h hlt hs =>
      exact walk_eq_of_goes pos_of_step (.waits h (Nat.lt_of_lt_of_le hlt hle) hs)
  · cases hgoes with
    | halted h hlt hs =>
      exact walk_eq_of_goes pos_of_step (.halted h (Nat.lt_of_lt_of_le hlt hle) hs)
  · cases hgoes with
    | nowhere h =>
      subst h
      obtain ⟨hcycles, htotal⟩ := counters_of_runs (.here : Runs step m 0 m)
      refine ⟨0, .here, rfl, fun h => absurd h (Nat.lt_irrefl 0), hcycles, htotal, fun hb => ?_,
        fun _ => rfl⟩
      cases Nat.le_zero.mp hb
      rfl
    | @completed before k m₀ _ h hlt hs hend =>
      have hruns := h.ran hs
      obtain ⟨hcycles, htotal⟩ := counters_of_runs hruns
      refine ⟨before + k, hruns, (Nat.add_sub_cancel' hend).symm,
        fun _ => ⟨before, k, m₀, h, hs, rfl, hlt⟩, hcycles, htotal, fun hb => ?_,
        fun hb => hruns.walk_eq pos_of_step hb⟩
      exact walk_eq_of_goes pos_of_step (.completed h (Nat.lt_of_lt_of_le hlt hle) hs hb)

/-- A machine that does nothing once and then goes round in a circle, when the counter of its frame
is about to wrap. -/
def circling : Machine Board where
  cpu := { pc := 2, cycles := .ofNat 0xFFFFFFFE }
  bus := { Bus.plug Board.blank with ram := memoryWith [(2, 0xEA), (3, 0x4C), (4, 0x03)] }

/-- A burst of ten cycles runs for eleven, and is the same for eleven or gone on with for twenty. -/
theorem circling_composes :
    10 ≤ 11 ∧ 10 ≤ 20 ∧ ∃ m₁, circling.burst 10 = (.completed 1, m₁) ∧
      m₁.cpu.cycles.toNat = 9 ∧ m₁.cpu.totalCycles = 11 ∧
      circling.burst 11 = (.completed 0, m₁) ∧ circling.burst 20 = m₁.burst 9 := by
  have hten : circling.burst 10 = (.completed 1, (circling.burst 10).2) := Prod.ext (by rfl) rfl
  obtain ⟨-, -, hsame⟩ := burst_composes circling (show 10 ≤ 11 by decide)
  obtain ⟨-, -, hmore⟩ := burst_composes circling (show 10 ≤ 20 by decide)
  obtain ⟨_, -, rfl, -, hcycles, htotal, hburst, -⟩ := hsame 1 _ hten
  obtain ⟨_, -, rfl, -, -, -, -, hburst'⟩ := hmore 1 _ hten
  exact ⟨by decide, by decide, _, hten, hcycles, htotal, hburst (by decide), hburst' (by decide)⟩

end Machine

end Famicom
