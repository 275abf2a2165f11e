import Famicom.Proofs.Console.Halting
import Famicom.Proofs.Machine.Stopping

/-!
# Halts last

A frame stops where a step of it stops: one of the first phase, one that is made again after the
drawing has caught up, or one of the second phase (`Console.Attempts`, `frame_halts_iff`).  The
frame reports the address and the cycles at which the processor stands, and every further frame the
same without doing anything (`runFrame_latched`), until the console is reset.
-/

namespace Famicom

open Picture

/-! ### The steps of a walk -/

section Walks

variable {σ : Type} {step : σ → Progress × σ}

/-- A walk of `n` cycles from `s`, being busy for the first `busy` of them, comes to take a step at
`t`. -/
inductive ComesTo (step : σ → Progress × σ) : Nat → Nat → σ → σ → Prop
  | here {n : Nat} {s : σ} : ComesTo step (n + 1) 0 s s
  | idle {n busy : Nat} {s t : σ} (h : ComesTo step n busy s t) :
    ComesTo step (n + 1) (busy + 1) s t
  | ran {n cycles : Nat} {s s' t : σ} (hs : step s = (.ran cycles, s'))
    (h : ComesTo step n (cycles - 1) s' t) : ComesTo step (n + 1) 0 s t

/-- A walk ends early exactly where a step that it takes cannot run. -/
theorem walk_halted_iff {n busy : Nat} {s : σ} {pc : UInt16} {t' : σ} :
    walk step n busy s = (.halted pc, t') ↔
      ∃ t, ComesTo step n busy s t ∧ step t = (.halted pc, t') := by
  constructor
  · intro h
    induction n generalizing busy s with
    | zero => cases h
    | succ n ih =>
      cases busy with
      | succ busy =>
        obtain ⟨t, ht, hs⟩ := ih h
        exact ⟨t, .idle ht, hs⟩
      | zero =>
        rw [walk] at h
        split at h <;> rename_i heq
        · obtain ⟨t, ht, hs⟩ := ih h
          exact ⟨t, .ran heq ht, hs⟩
        · cases h
        · cases h
          exact ⟨s, .here, heq⟩
  · rintro ⟨t, ht, hs⟩
    induction ht with
    | here => rw [walk, hs]
    | idle _ ih => exact ih hs
    | ran hs' _ ih => rw [walk, hs', ← ih hs]

end Walks

variable {κ σ : Type} [Cartridge κ] [PixelSink σ]

/-- A step beside the drawing stops where the machine's does, which is made again after the drawing
has caught up if it was taken back. -/
theorem Drawing.step_halted_iff {d d' : Drawing κ σ} {pc : UInt16} :
    d.step = (.halted pc, d') ↔
      (∃ m', d.machine.step = (.halted pc, m') ∧ d' = { d with machine := m' }) ∨
        ∃ m m', d.machine.step = (.waits, m) ∧
          (catchUp { d with machine := m }).machine.step = (.halted pc, m') ∧
            d' = { catchUp { d with machine := m } with machine := m' } := by
  rcases hs : d.machine.step with ⟨p, m⟩
  by_cases hw : p = .waits
  · subst hw
    rw [step_of_waits hs, onMachine_eq]
    constructor
    · intro h
      obtain ⟨hp, rfl⟩ := Prod.mk.inj h
      exact .inr ⟨m, _, rfl, Prod.ext hp rfl, rfl⟩
    · rintro (⟨m', h, -⟩ | ⟨m₁, m', h, h', rfl⟩)
      · cases h
      · cases h
        rw [h']
  · rw [step_of_ne_waits (by rw [hs]; exact hw), hs]
    constructor
    · intro h
      obtain ⟨rfl, rfl⟩ := Prod.mk.inj h
      exact .inl ⟨m, rfl, rfl⟩
    · rintro (⟨m', h, rfl⟩ | ⟨m₁, m', h, -⟩)
      · cases h
        rfl
      · cases h
        exact absurd rfl hw

namespace Console

/-! ### The steps of a frame -/

/-- The machines with which a frame takes a step. -/
inductive Attempts (c : Console κ) (sink : σ) : Machine κ → Prop
  /-- while the picture is drawn -/
  | drawing {d : Drawing κ σ}
    (h : ComesTo Drawing.step c.settings.renderCycles 0 (c.opening sink) d) :
    Attempts c sink d.machine
  /-- once more, after the drawing has caught up with a step that was taken back -/
  | again {d : Drawing κ σ} {m : Machine κ}
    (h : ComesTo Drawing.step c.settings.renderCycles 0 (c.opening sink) d)
    (hw : d.machine.step = (.waits, m)) :
    Attempts c sink (Drawing.catchUp { d with machine := m }).machine
  /-- after the picture is complete -/
  | resting {o : Outcome} {d : Drawing κ σ} {m : Machine κ} (h : c.rendering sink = (o, d))
    (ho : o.halts = false)
    (hm : ComesTo Machine.step c.settings.vblankCycles 0
      (d.endRender c.settings.renderTicks).machine m) : Attempts c sink m

theorem frame_of_halted {c : Console κ} {sink : σ} {pc : UInt16} {d : Drawing κ σ}
    (h : c.rendering sink = (.halted pc, d)) : c.frame sink = (.halted pc, d) := by
  rw [frame, h]

theorem frame_of_not_halts {c : Console κ} {sink : σ} {o : Outcome} {d : Drawing κ σ}
    (h : c.rendering sink = (o, d)) (ho : o.halts = false) : c.frame sink = c.resting d := by
  rw [frame, h]
  cases o with
  | halted pc => cases ho
  | _ => rfl

/-- **A frame stops exactly where a step of it does**, and leaves what that step leaves. -/
theorem frame_halts_iff {c : Console κ} {sink : σ} {pc : UInt16} {m' : Machine κ} :
    ((c.frame sink).1 = .halted pc ∧ (c.frame sink).2.machine = m') ↔
      ∃ m, c.Attempts sink m ∧ m.step = (.halted pc, m') := by
  constructor
  · rintro ⟨hpc, rfl⟩
    rcases hr : c.rendering sink with ⟨o, d⟩
    cases ho : o.halts with
    | true =>
      cases o with
      | halted pc' =>
        rw [frame_of_halted hr] at hpc ⊢
        cases hpc
        obtain ⟨t, ht, hs⟩ := walk_halted_iff.mp hr
        rcases Drawing.step_halted_iff.mp hs with ⟨m', hm, rfl⟩ | ⟨m, m', hw, hm, rfl⟩
        · exact ⟨_, .drawing ht, hm⟩
        · exact ⟨_, .again ht hw, hm⟩
      | _ => cases ho
    | false =>
      rw [frame_of_not_halts hr ho] at hpc ⊢
      have hburst : walk Machine.step c.settings.vblankCycles 0
          (d.endRender c.settings.renderTicks).machine =
            (.halted pc, (c.resting d).2.machine) := Prod.ext hpc rfl
      obtain ⟨m, hm, hs⟩ := walk_halted_iff.mp hburst
      exact ⟨m, .resting hr ho hm, hs⟩
  · rintro ⟨m, hm, hs⟩
    cases hm with
    | drawing h =>
      rw [frame_of_halted (walk_halted_iff.mpr
        ⟨_, h, Drawing.step_halted_iff.mpr (.inl ⟨_, hs, rfl⟩)⟩)]
      exact ⟨rfl, rfl⟩
    | again h hw =>
      rw [frame_of_halted (walk_halted_iff.mpr
        ⟨_, h, Drawing.step_halted_iff.mpr (.inr ⟨_, _, hw, hs, rfl⟩)⟩)]
      exact ⟨rfl, rfl⟩
    | resting h ho hm =>
      have hwalk := walk_halted_iff.mpr ⟨_, hm, hs⟩
      rw [frame_of_not_halts h ho]
      exact ⟨congrArg Prod.fst hwalk, congrArg Prod.snd hwalk⟩

/-! ### The report -/

/-- Nothing but a reset takes the report of a halt away. -/
theorem perform_halt {c : Console κ} {halt : Halt} (h : c.halt = some halt) {op : Operation}
    (hop : op ≠ .reset) : (c.perform op).halt = some halt := by
  cases op with
  | frame sink => rwa [perform, runFrame, h]
  | reset => exact absurd rfl hop
  | save => exact h
  | restore =>
    obtain heq | ⟨s, journal, -, heq⟩ := c.perform_restore_eq
    · rwa [heq]
    · rw [heq]
      exact h
  | arm code =>
    obtain ⟨genie, journal, heq⟩ := c.perform_arm_eq code
    rw [heq]
    exact h
  | disarm =>
    obtain ⟨genie, journal, heq⟩ := c.perform_disarm_eq
    rw [heq]
    exact h
  | connect socket pad => exact h
  | disconnect socket => exact h

/-- **The report of a halt lasts**, and while it does no frame does anything. -/
theorem runFrame_latched {c : Console κ} {halt : Halt} (h : c.halt = some halt)
    {ops : List Operation} (hops : ∀ op ∈ ops, op ≠ .reset) (sink : σ) :
    (c.after ops).runFrame sink = (.error (.halted halt), c.after ops, sink) := by
  have hlatched : (c.after ops).halt = some halt :=
    after_keeps (P := fun c => c.halt = some halt) (fun _ _ hop h => perform_halt h hop) hops h
  rw [runFrame, hlatched]

theorem runFrame_of_attempts {c : Console κ} (hc : c.halt = none) {sink : σ} {m m' : Machine κ}
    {pc : UInt16} (hm : c.Attempts sink m) (hs : m.step = (.halted pc, m')) :
    ∃ c' sink', c.runFrame sink = (.error (.halted ⟨pc, m'.cpu.totalCycles⟩), c', sink') ∧
      c'.machine = m' ∧ c'.halt = some ⟨pc, m'.cpu.totalCycles⟩ := by
  obtain ⟨hframe, hmachine⟩ := frame_halts_iff.mpr ⟨m, hm, hs⟩
  rw [runFrame_of_not_halted hc]
  rcases hr : c.frame sink with ⟨o, d⟩
  rw [hr] at hframe hmachine
  obtain rfl : o = .halted pc := hframe
  obtain rfl : d.machine = m' := hmachine
  exact ⟨_, _, rfl, rfl, rfl⟩

theorem attempts_of_runFrame {c : Console κ} (hc : c.halt = none) {sink : σ} {e : Error}
    (h : (c.runFrame sink).1 = .error e) :
    ∃ m pc m', c.Attempts sink m ∧ m.step = (.halted pc, m') := by
  rw [runFrame_of_not_halted hc] at h
  rcases hr : c.frame sink with ⟨o, d⟩
  rw [hr] at h
  cases o with
  | halted pc =>
    obtain ⟨m, hm, hs⟩ := frame_halts_iff.mp ⟨congrArg Prod.fst hr, rfl⟩
    exact ⟨m, pc, _, hm, hs⟩
  | completed excess => cases h
  | waits => cases h

end Console

/-! ### Both together -/

structure Machine.HaltsExactly (m : Machine κ) : Prop where
  /-- it does where it has read an opcode that stops it, and nowhere else -/
  iff : (∃ pc m', m.step = (.halted pc, m')) ↔
    Exec.mustWait m m.cpu.pc = false ∧
      Processor.StopsAt m.cpu.undocumented (Program.opcodeAt m)
  /-- it stands there as it did before -/
  still (pc : UInt16) (m' : Machine κ) (hs : m.step = (.halted pc, m')) :
    pc = m.cpu.pc ∧ Still m m' ∧ m'.bus.ram = m.bus.ram ∧ m'.bus.cartridge = m.bus.cartridge
  /-- and for ever after -/
  again (pc : UInt16) (m' : Machine κ) (hs : m.step = (.halted pc, m')) : m'.step = (.halted pc, m')

structure Console.HaltsLatched (c : Console κ) (sink : σ) : Prop where
  /-- it fails exactly if a step of it stops -/
  iff : (∃ e, (c.runFrame sink).1 = .error e) ↔
    ∃ m pc m', c.Attempts sink m ∧ m.step = (.halted pc, m')
  /-- it reports where and when, and so does every further frame, without doing anything -/
  latched (m m' : Machine κ) (pc : UInt16) (hm : c.Attempts sink m)
    (hs : m.step = (.halted pc, m')) :
    ∃ c' sink', c.runFrame sink = (.error (.halted ⟨pc, m.cpu.totalCycles⟩), c', sink') ∧
      c'.machine = m' ∧
      ∀ ops : List Operation, (∀ op ∈ ops, op ≠ .reset) →
        ∀ {τ : Type} [PixelSink τ] (later : τ), (c'.after ops).runFrame later =
          (.error (.halted ⟨pc, m.cpu.totalCycles⟩), c'.after ops, later)

/-- **Halts are exact.** -/
theorem Machine.haltsExactly {m : Machine κ} (hh : m.cpu.halted = false)
    (hdue : m.nmiDue = false) : m.HaltsExactly where
  iff := step_halts_iff hh hdue
  still pc m' hs := by
    obtain ⟨hpc, hstill⟩ := still_of_step hh hs
    exact ⟨hpc, hstill, hstill.memory, hstill.cartridge⟩
  again pc m' hs := step_again hs

/-- A step that stops has not let time pass. -/
theorem Machine.totalCycles_of_halts {m m' : Machine κ} {pc : UInt16}
    (hs : m.step = (.halted pc, m')) : m'.cpu.totalCycles = m.cpu.totalCycles := by
  cases hh : m.cpu.halted with
  | true =>
    rw [step_of_halted hh] at hs
    cases hs
    rfl
  | false => rw [(still_of_step hh hs).2.cpu]

/-- **Halts last.** -/
theorem Console.haltsLatched {c : Console κ} (hc : c.halt = none) (sink : σ) :
    c.HaltsLatched sink where
  iff := by
    refine ⟨fun ⟨e, he⟩ => attempts_of_runFrame hc he, ?_⟩
    rintro ⟨m, pc, m', hm, hs⟩
    obtain ⟨c', sink', hrun, -⟩ := runFrame_of_attempts hc hm hs
    exact ⟨_, congrArg Prod.fst hrun⟩
  latched m m' pc hm hs := by
    obtain ⟨c', sink', hrun, hmachine, hhalt⟩ := runFrame_of_attempts hc hm hs
    rw [Machine.totalCycles_of_halts hs] at hrun hhalt
    exact ⟨c', sink', hrun, hmachine, fun ops hops _ _ later => runFrame_latched hhalt hops later⟩

/-- **Halts are exact, and they last.**  A processor stops exactly at the opcodes that stop it, and
leaves everything as it was.  A frame reports that it did, and every further frame the same until
the console is reset. -/
theorem halts_exact_and_latched :
    (∀ m : Machine κ, m.cpu.halted = false → m.nmiDue = false → m.HaltsExactly) ∧
      ∀ (c : Console κ) (sink : σ), c.halt = none → c.HaltsLatched sink :=
  ⟨fun _ => Machine.haltsExactly, fun _ sink hc => Console.haltsLatched hc sink⟩

/-- A new console whose program stops at once: the frame says so, and so does every frame after a
snapshot has been taken and taken up again. -/
theorem plain_halts_latched :
    (Console.plain 0x92 1).machine.HaltsExactly ∧
      ∃ c' sink', (Console.plain 0x92 1).runFrame Screen.blank =
          (.error (.halted ⟨0x9292, 7⟩), c', sink') ∧
        (c'.after [.save, .restore]).runFrame Screen.blank =
          (.error (.halted ⟨0x9292, 7⟩), c'.after [.save, .restore], Screen.blank) := by
  let c := Console.plain 0x92 1
  obtain ⟨hexact, hlatched⟩ := halts_exact_and_latched (κ := Board) (σ := Screen)
  have hs (m : Machine Board) (h : m.step.1 = .halted 0x9292) :
      m.step = (.halted 0x9292, m.step.2) := Prod.ext h rfl
  obtain ⟨c', sink', hrun, -, hlater⟩ := (hlatched c Screen.blank rfl).latched
    (c.opening Screen.blank).machine _ 0x9292 (.drawing .here) (hs _ (by decide +kernel))
  exact ⟨hexact c.machine rfl rfl, c', sink', hrun, hlater _ (by simp) _⟩

end Famicom
