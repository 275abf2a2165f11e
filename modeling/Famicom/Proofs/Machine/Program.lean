import Famicom.Machine.Step
import Famicom.Proofs.Bus.Frame

/-!
# Laws of programs

A run of one program after another is the one run after the other (`run_bind`, `accesses_bind`).
Where nothing has to wait, a program is a function of what instructions work on and of the bus
(`exec`, `trace`): a run either waits or does what `exec` says (`run_eq_exec`), and it waits only on
a machine that must (`run_ne_wait`).  So the journal, the counters and the flags of the
synchronisation never decide what an instruction does.  Nor does the journal decide whether it waits
(`run_journal`), and what lasts on the bus lasts in every run (`run_lasting`).

`Obeys` is what all steps of a program have in common.
-/

namespace Famicom

open Processor

namespace Program

variable {α β κ : Type} [Cartridge κ]

/-! ### One program after another -/

@[simp] theorem pure_eq (a : α) : (pure a : Program α) = .done a := rfl

@[simp] theorem bind_eq (p : Program α) (f : α → Program β) : p >>= f = p.bind f := rfl

section

-- the equations are derived here, once for all proofs
attribute [local simp] bind run accesses

theorem run_bind (p : Program α) (f : α → Program β) (m : Machine κ) :
    (p.bind f).run m =
      match p.run m with
      | .ok a m => (f a).run m
      | .error t m => .error t m := by
  induction p generalizing m with
  | done a => rfl
  | jam => rfl
  | look next ih => exact ih _ m
  | change g next ih => exact ih _
  | note event next ih => exact ih _
  | read purpose address next ih =>
    simp only [bind, run]
    cases Exec.read address m with
    | ok byte m => exact ih byte m
    | error t m => rfl
  | write address byte next ih =>
    simp only [bind, run]
    cases Exec.write address byte m with
    | ok _ m => exact ih m
    | error t m => rfl

theorem accesses_bind (p : Program α) (f : α → Program β) (m : Machine κ) :
    (p.bind f).accesses m = p.accesses m ++
      match p.run m with
      | .ok a m => (f a).accesses m
      | .error _ _ => [] := by
  induction p generalizing m with
  | done a => rfl
  | jam => rfl
  | look next ih => exact ih _ m
  | change g next ih => exact ih _
  | note event next ih => exact ih _
  | read purpose address next ih =>
    simp only [bind, run, accesses]
    cases Exec.read address m with
    | ok byte m => simp [ih byte m]
    | error t m => rfl
  | write address byte next ih =>
    simp only [bind, run, accesses]
    cases Exec.write address byte m with
    | ok _ m => simp [ih m]
    | error t m => rfl

end

/-! ### Where nothing has to wait -/

/-- What a program does to the core and to the bus where nothing has to wait; the processor that
stops for good has no result. -/
def exec : Program α → Core → Bus κ → Option α × Core × Bus κ
  | .done a, c, b => (some a, c, b)
  | .jam, c, b => (none, c, b)
  | .look next, c, b => (next c).exec c b
  | .change f next, c, b => next.exec (f c) b
  | .note _ next, c, b => next.exec c b
  | .read _ address next, c, b => (next (b.read address).1).exec c (b.read address).2
  | .write address byte next, c, b => next.exec c (b.write address byte)

/-- The accesses it makes there. -/
def trace : Program α → Core → Bus κ → List Access
  | .done _, _, _ => []
  | .jam, _, _ => []
  | .look next, c, b => (next c).trace c b
  | .change f next, c, b => next.trace (f c) b
  | .note _ next, c, b => next.trace c b
  | .read purpose address next, c, b =>
    .read purpose address :: (next (b.read address).1).trace c (b.read address).2
  | .write address byte next, c, b => .write address byte :: next.trace c (b.write address byte)

theorem exec_bind (p : Program α) (f : α → Program β) (c : Core) (b : Bus κ) :
    (p.bind f).exec c b =
      match p.exec c b with
      | (some a, c, b) => (f a).exec c b
      | (none, c, b) => (none, c, b) := by
  induction p generalizing c b with
  | done a => rfl
  | jam => rfl
  | look next ih => exact ih _ c b
  | change g next ih => exact ih _ b
  | note event next ih => exact ih c b
  | read purpose address next ih => exact ih _ c _
  | write address byte next ih => exact ih c _

theorem trace_bind (p : Program α) (f : α → Program β) (c : Core) (b : Bus κ) :
    (p.bind f).trace c b = p.trace c b ++
      match p.exec c b with
      | (some a, c, b) => (f a).trace c b
      | (none, _, _) => [] := by
  induction p generalizing c b with
  | done a => rfl
  | jam => rfl
  | look next ih => exact ih _ c b
  | change g next ih => exact ih _ b
  | note event next ih => exact ih c b
  | read purpose address next ih => exact congrArg _ (ih _ c _)
  | write address byte next ih => exact congrArg _ (ih c _)

/-- The result of a run on `m` that did not have to wait. -/
def outcome (m : Machine κ) (j : Journal) :
    Option α × Core × Bus κ → EStateM.Result Trap (Machine κ) α
  | (some a, c, b) => .ok a ⟨{ m.cpu with toCore := c }, b, j⟩
  | (none, c, b) => .error .jam ⟨{ m.cpu with toCore := c }, b, j⟩

/-- **A run waits, or does what `exec` says.** -/
theorem run_eq_exec (p : Program α) (m : Machine κ) :
    (∃ m', p.run m = .error .wait m') ∨
      p.accesses m = p.trace m.cpu.toCore m.bus ∧
        ∃ j, p.run m = outcome m j (p.exec m.cpu.toCore m.bus) := by
  induction p generalizing m with
  | done a => exact .inr ⟨rfl, m.journal, rfl⟩
  | jam => exact .inr ⟨rfl, m.journal, rfl⟩
  | look next ih => exact ih _ m
  | change f next ih => exact ih (m.onCore f)
  | note event next ih => exact ih (m.record (event m.cpu))
  | read purpose address next ih =>
    cases h : Exec.mustWait m address with
    | true => exact .inl ⟨m, by simp only [run, Exec.read_of_mustWait h]⟩
    | false =>
      simp only [run, accesses, trace, exec, Exec.read_of_not_mustWait h, List.cons.injEq, true_and]
      exact ih _ _
  | write address byte next ih =>
    cases h : Exec.mustWait m address with
    | true => exact .inl ⟨m, by simp only [run, Exec.write_of_mustWait h]⟩
    | false =>
      simp only [run, accesses, trace, exec, Exec.write_of_not_mustWait h, List.cons.injEq,
        true_and]
      exact ih _

theorem run_ne_wait (p : Program α) {m : Machine κ} (h : m.cpu.sync.mustWait = false)
    (m' : Machine κ) : p.run m ≠ .error .wait m' := by
  induction p generalizing m with
  | done a => simp [run]
  | jam => simp [run]
  | look next ih => exact ih _ h
  | change f next ih => exact ih h
  | note event next ih => exact ih h
  | read purpose address next ih =>
    rw [run, Exec.read_of_not_mustWait (Exec.not_mustWait_of_sync h)]
    exact ih _ h
  | write address byte next ih =>
    rw [run, Exec.write_of_not_mustWait (Exec.not_mustWait_of_sync h)]
    exact ih h

/-- A machine that must wait does not get to a register of the picture unit. -/
theorem accesses_of_mustWait (p : Program α) {m : Machine κ} (h : m.cpu.sync.mustWait = true) :
    ∀ a ∈ p.accesses m, isRegister a.address = false := by
  induction p generalizing m with
  | done a => simp [accesses]
  | jam => simp [accesses]
  | look next ih => exact ih _ h
  | change f next ih => exact ih h
  | note event next ih => exact ih h
  | read purpose address next ih =>
    cases hw : Exec.mustWait m address with
    | true => simp [accesses, Exec.read_of_mustWait hw]
    | false =>
      simp only [accesses, Exec.read_of_not_mustWait hw, List.forall_mem_cons]
      exact ⟨by rwa [Exec.mustWait_of_sync h] at hw, ih _ h⟩
  | write address byte next ih =>
    cases hw : Exec.mustWait m address with
    | true => simp [accesses, Exec.write_of_mustWait hw]
    | false =>
      simp only [accesses, Exec.write_of_not_mustWait hw, List.forall_mem_cons]
      exact ⟨by rwa [Exec.mustWait_of_sync h] at hw, ih h⟩

/-! ### What a run leaves -/

/-- The machine that a run leaves, however it ended. -/
def left : EStateM.Result Trap (Machine κ) α → Machine κ
  | .ok _ m => m
  | .error _ m => m

/-- What lasts on the bus lasts in a run. -/
theorem run_lasting {P : Bus κ → Prop} (hP : Bus.Lasting P) (p : Program α) {m : Machine κ}
    (h : P m.bus) : P (left (p.run m)).bus := by
  induction p generalizing m with
  | done a => exact h
  | jam => exact h
  | look next ih => exact ih _ h
  | change f next ih => exact ih h
  | note event next ih => exact ih h
  | read purpose address next ih =>
    cases hw : Exec.mustWait m address with
    | true =>
      rw [run, Exec.read_of_mustWait hw]
      exact h
    | false =>
      rw [run, Exec.read_of_not_mustWait hw]
      exact ih _ (hP.read address h)
  | write address byte next ih =>
    cases hw : Exec.mustWait m address with
    | true =>
      rw [run, Exec.write_of_mustWait hw]
      exact h
    | false =>
      rw [run, Exec.write_of_not_mustWait hw]
      exact ih (hP.write address byte h)

def retell (journal : Journal) :
    EStateM.Result Trap (Machine κ) α → EStateM.Result Trap (Machine κ) α
  | .ok a m => .ok a { m with journal }
  | .error t m => .error t { m with journal }

/-- A run does not read the journal. -/
theorem run_journal (p : Program α) (m : Machine κ) (journal : Journal) :
    ∃ journal', p.run { m with journal } = retell journal' (p.run m) := by
  induction p generalizing m journal with
  | done a => exact ⟨journal, rfl⟩
  | jam => exact ⟨journal, rfl⟩
  | look next ih => exact ih _ m journal
  | change f next ih => exact ih (m.onCore f) journal
  | note event next ih => exact ih (m.record (event m.cpu)) (journal.record (event m.cpu))
  | read purpose address next ih =>
    cases hw : Exec.mustWait m address with
    | true =>
      refine ⟨journal, ?_⟩
      rw [run, run, Exec.read_of_mustWait hw, Exec.read_of_mustWait (m := { m with journal }) hw]
      rfl
    | false =>
      rw [run, run, Exec.read_of_not_mustWait hw,
        Exec.read_of_not_mustWait (m := { m with journal }) hw]
      exact ih _ { m with bus := (m.bus.read address).2 } journal
  | write address byte next ih =>
    cases hw : Exec.mustWait m address with
    | true =>
      refine ⟨journal, ?_⟩
      rw [run, run, Exec.write_of_mustWait hw, Exec.write_of_mustWait (m := { m with journal }) hw]
      rfl
    | false =>
      rw [run, run, Exec.write_of_not_mustWait hw,
        Exec.write_of_not_mustWait (m := { m with journal }) hw]
      exact ih (m.write address byte) _

/-! ### Fetching -/

section Fetch

variable {m : Machine κ}

def fetched (m : Machine κ) : Machine κ :=
  ⟨{ m.cpu with pc := m.cpu.pc + 1 }, (m.bus.read m.cpu.pc).2, m.journal⟩

theorem run_fetch (h : Exec.mustWait m m.cpu.pc = false) :
    fetch.run m = .ok (m.bus.read m.cpu.pc).1 (fetched m) := by
  simp [fetch, core, goto, modifyCore, bind, run, Exec.read_of_not_mustWait h, fetched,
    Machine.onCore]

theorem fetch_refused (h : Exec.mustWait m m.cpu.pc = true) :
    fetch.run m = .error .wait m ∧ fetch.accesses m = [] := by
  simp [fetch, core, bind, run, accesses, Exec.read_of_mustWait h]

end Fetch

/-! ### What all steps have in common -/

/-- What the steps of a program may be.  An access to an address that `stops` is taken to be the end
of the run. -/
structure Rules where
  stops : UInt16 → Bool := fun _ => false
  change : Core → Core → Prop := fun _ _ => True
  read : Purpose → UInt16 → Prop := fun _ _ => True
  write : UInt16 → UInt8 → Prop := fun _ _ => True

/-- From a core on, every step of a program keeps to the rules and its result has a property,
whatever is read. -/
def Obeys (r : Rules) (Q : α → Core → Prop) : Program α → Core → Prop
  | .done a, c => Q a c
  | .jam, _ => True
  | .look next, c => (next c).Obeys r Q c
  | .change f next, c => r.change c (f c) ∧ next.Obeys r Q (f c)
  | .note _ next, c => next.Obeys r Q c
  | .read purpose address next, c =>
    r.stops address = true ∨ r.read purpose address ∧ ∀ byte, (next byte).Obeys r Q c
  | .write address byte next, c =>
    r.stops address = true ∨ r.write address byte ∧ next.Obeys r Q c

variable {r : Rules}

theorem Obeys.bind {p : Program α} {f : α → Program β} {Q : α → Core → Prop} {Q' : β → Core → Prop}
    {c : Core} (hp : p.Obeys r Q c) (hf : ∀ a c, Q a c → (f a).Obeys r Q' c) :
    (p.bind f).Obeys r Q' c := by
  induction p generalizing c with
  | done a => exact hf a c hp
  | jam => trivial
  | look next ih => exact ih c hp
  | change g next ih => exact ⟨hp.1, ih hp.2⟩
  | note event next ih => exact ih hp
  | read purpose address next ih =>
    exact hp.imp_right fun h => ⟨h.1, fun byte => ih byte (h.2 byte)⟩
  | write address byte next ih => exact hp.imp_right fun h => ⟨h.1, ih h.2⟩

end Program

end Famicom
