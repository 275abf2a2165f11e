import Famicom.Cartridge.Board
import Famicom.Proofs.Bus.Frame
import Famicom.Proofs.Machine.Step

/-!
# Taking an instruction back

An instruction that has to wait for the picture is run again from its start, so it may not have done
anything yet.  The idea: until its first access to a register of the picture unit an instruction
only *probes*, that is, it reads its own bytes and page zero and changes the program counter and
what it knows of its operand (`probing`).  Once it does more, it keeps away from the registers
(`aside`), and what keeps away from them never waits.  So what is left behind where it waits is an
`Attempt` (`instruction_attempt`), and the step as a whole leaves nothing at all
(`step_waits_atomic`).
-/

namespace Famicom

open Processor

/-- Finding an operand by the mode does not change this part of what is known of it. -/
def Processor.Mode.Keeps (mode : Mode) (o o' : Operand) : Prop :=
  if mode.addressesMemory then o'.data = o.data else o'.address = o.address ∧ o'.base = o.base

theorem Processor.Mode.Keeps.refl (mode : Mode) (o : Operand) : mode.Keeps o o := by
  unfold Mode.Keeps
  split <;> simp

theorem Processor.Mode.Keeps.trans {mode : Mode} {o₁ o₂ o₃ : Operand} (h : mode.Keeps o₁ o₂)
    (h' : mode.Keeps o₂ o₃) : mode.Keeps o₁ o₃ := by
  unfold Mode.Keeps at *
  split <;> simp_all

/-- An access that an instruction at `pc` may make before it waits: to page zero, or to one of its
own bytes. -/
def Access.Near (pc : UInt16) (a : Access) : Prop :=
  highByte a.address = 0 ∨ ∃ i < 3, a = .read .code (pc + .ofNat i)

namespace Program

variable {α β κ : Type} {mode : Mode} {pc : UInt16} {c : Core} {m m' m'' : Machine κ}

/-! ### What is left behind -/

/-- From `m` to `m'` an instruction at `pc` has made the accesses `l` and has only probed. -/
structure Attempt (mode : Mode) (pc : UInt16) (m m' : Machine κ) (l : List Access) : Prop where
  cpu : m'.cpu = { m.cpu with pc := m'.cpu.pc, operand := m'.cpu.operand }
  operand : mode.Keeps m.cpu.operand m'.cpu.operand
  bus : m'.bus = { m.bus with pads := m'.bus.pads }
  pads : (∀ a ∈ l, Bus.NoPad a.address) → m'.bus.pads = m.bus.pads
  near : ∀ a ∈ l, a.Near pc

namespace Attempt

theorem refl (m : Machine κ) : Attempt mode pc m m [] :=
  ⟨rfl, .refl mode _, rfl, fun _ => rfl, by simp⟩

theorem trans {l l' : List Access} (h : Attempt mode pc m m' l) (h' : Attempt mode pc m' m'' l') :
    Attempt mode pc m m'' (l ++ l') where
  cpu := by rw [h'.cpu, h.cpu]
  operand := h.operand.trans h'.operand
  bus := by rw [h'.bus, h.bus]
  pads hl := by
    rw [h'.pads fun a ha => hl a (List.mem_append_right _ ha),
      h.pads fun a ha => hl a (List.mem_append_left _ ha)]
  near := by
    intro a ha
    rcases List.mem_append.mp ha with ha | ha
    · exact h.near a ha
    · exact h'.near a ha

/-- Where no part of the instruction is fetched from a pad, the attempt leaves the bus alone. -/
theorem bus_eq {l : List Access} (h : Attempt mode pc m m' l)
    (hcode : ∀ address, .read .code address ∈ l → Bus.NoPad address) : m'.bus = m.bus := by
  rw [h.bus, h.pads]
  intro a ha
  rcases h.near a ha with h0 | ⟨i, -, rfl⟩
  · exact Bus.noPad_of_page_zero h0
  · exact hcode _ ha

/-- An instruction that stands away from the pads is not fetched from one. -/
theorem code_noPad {l : List Access} (h : Attempt mode pc m m' l)
    (hpc : ∀ i < 3, Bus.NoPad (pc + .ofNat i)) (address : UInt16) (ha : .read .code address ∈ l) :
    Bus.NoPad address := by
  rcases h.near _ ha with h0 | ⟨i, hi, heq⟩
  · exact Bus.noPad_of_page_zero h0
  · cases heq
    exact hpc i hi

end Attempt

variable [Cartridge κ]

/-! ### Keeping away from the registers -/

/-- No access to a register of the picture unit. -/
def aside : Rules where
  read _ address := isRegister address = false
  write address _ := isRegister address = false

theorem Obeys.run_ne_wait {p : Program α} {Q : α → Core → Prop}
    (h : p.Obeys aside Q m.cpu.toCore) : p.run m ≠ .error .wait m' := by
  induction p generalizing m with
  | done a => simp [run]
  | jam => simp [run]
  | look next ih => exact ih _ h
  | change f next ih => exact ih h.2
  | note event next ih => exact ih h
  | read purpose address next ih =>
    obtain ⟨ha, hnext⟩ := h.resolve_left Bool.false_ne_true
    have hw : Exec.mustWait m address = false := by
      simp [Exec.mustWait, show isRegister _ = _ from ha]
    rw [run, Exec.read_of_not_mustWait hw]
    exact ih _ (hnext _)
  | write address byte next ih =>
    obtain ⟨ha, hnext⟩ := h.resolve_left Bool.false_ne_true
    have hw : Exec.mustWait m address = false := by
      simp [Exec.mustWait, show isRegister _ = _ from ha]
    rw [run, Exec.write_of_not_mustWait hw]
    exact ih hnext

/-- Nothing but accesses that keep away from the registers. -/
abbrev Aside (p : Program α) (c : Core) : Prop := p.Obeys aside (fun _ _ => True) c

theorem isRegister_stackAddress (c : Core) : isRegister c.stackAddress = false :=
  isRegister_of_page c.highByte_stackAddress (.inl (by decide))

theorem isRegister_of_inStack {address : UInt16} (h : inStack address = true) :
    isRegister address = false :=
  isRegister_of_page (by simpa [inStack] using h) (.inl (by decide))

theorem push_aside (byte : UInt8) (c : Core) : (push byte).Aside c := by
  simp [Aside, push, core, writeByte, modifyRegs, modifyCore, bind, Obeys, aside,
    isRegister_stackAddress]

theorem pop_aside (c : Core) : pop.Aside c := by
  simp [Aside, pop, core, readByte, modifyRegs, modifyCore, bind, Obeys, aside,
    isRegister_stackAddress]

theorem pushWord_aside (w : UInt16) (c : Core) : (pushWord w).Aside c :=
  (push_aside _ c).bind fun _ c _ => push_aside _ c

theorem popWord_aside (c : Core) : popWord.Aside c :=
  (pop_aside c).bind fun _ c _ => (pop_aside c).bind fun _ _ _ => trivial

theorem readPair_aside {low high : UInt16} (hl : isRegister low = false)
    (hh : isRegister high = false) (c : Core) : (readPair low high).Aside c := by
  simp [Aside, readPair, readByte, bind, Obeys, aside, hl, hh]

theorem enterInterrupt_aside {vector : UInt16} (hl : isRegister vector = false)
    (hh : isRegister (vector + 1) = false) (byInstruction : Bool) (c : Core) :
    (enterInterrupt vector byInstruction).Aside c :=
  (pushWord_aside _ c).bind fun _ _ _ => (push_aside _ _).bind fun _ _ _ => by
    refine ⟨trivial, ?_⟩
    exact (readPair_aside hl hh _).bind fun _ _ _ => ⟨trivial, trivial⟩

theorem call_aside (c : Core) : call.Aside c := by
  simp only [call, core, bind_eq, bind, Aside, Obeys]
  refine (pushWord_aside (c.pc - 1) c).bind fun _ c' _ => ?_
  split
  · rename_i h
    simp [readByte, goto, modifyCore, bind, Obeys, aside, isRegister_of_inStack h]
  · simp [goto, modifyCore, Obeys, aside]


/-! ### Probing -/

/-- What an instruction may do before it waits. -/
def probing (mode : Mode) (pc : UInt16) : Rules where
  stops := isRegister
  change c c' := c'.regs = c.regs ∧ mode.Keeps c.operand c'.operand
  read purpose address := Access.Near pc (.read purpose address)
  write _ _ := False

/-- What probes leaves an attempt behind, however it ends. -/
theorem Obeys.attempt {p : Program α} {Q : α → Core → Prop}
    (hp : p.Obeys (probing mode pc) Q m.cpu.toCore) (hm : m.cpu.sync.mustWait = true) :
    ∃ m', Attempt mode pc m m' (p.accesses m) ∧
      ((∃ t, p.run m = .error t m') ∨ ∃ a, p.run m = .ok a m' ∧ Q a m'.cpu.toCore) := by
  induction p generalizing m with
  | done a => exact ⟨m, .refl m, .inr ⟨a, rfl, hp⟩⟩
  | jam => exact ⟨m, .refl m, .inl ⟨.jam, rfl⟩⟩
  | look next ih => exact ih _ hp hm
  | change f next ih =>
    obtain ⟨m', h, hrun⟩ := ih (m := m.onCore f) hp.2 hm
    have hf : Attempt mode pc m (m.onCore f) [] := by
      refine ⟨?_, hp.1.2, rfl, fun _ => rfl, by simp⟩
      simp [← hp.1.1]
    exact ⟨m', hf.trans h, hrun⟩
  | note event next ih =>
    obtain ⟨m', h, hrun⟩ := ih (m := m.record (event m.cpu)) hp hm
    have hn : Attempt mode pc m (m.record (event m.cpu)) [] :=
      ⟨rfl, .refl mode _, rfl, fun _ => rfl, by simp⟩
    exact ⟨m', hn.trans h, hrun⟩
  | read purpose address next ih =>
    cases hw : Exec.mustWait m address with
    | true =>
      simp only [run, accesses, Exec.read_of_mustWait hw]
      exact ⟨m, .refl m, .inl ⟨.wait, rfl⟩⟩
    | false =>
      have ha : isRegister address = false := by rwa [Exec.mustWait_of_sync hm] at hw
      obtain ⟨hnear, hnext⟩ := hp.resolve_left (by simp [probing, ha])
      obtain ⟨m', h, hrun⟩ := ih _ (hnext _) (m := { m with bus := (m.bus.read address).2 }) hm
      have hr : Attempt mode pc m { m with bus := (m.bus.read address).2 }
          [.read purpose address] :=
        ⟨rfl, .refl mode _, Bus.read_of_not_isRegister ha,
          fun hl => Bus.read_pads (hl _ (List.mem_singleton_self _)),
          by simpa using show Access.Near pc _ from hnear⟩
      simp only [run, accesses, Exec.read_of_not_mustWait hw]
      exact ⟨m', hr.trans h, hrun⟩
  | write address byte next ih =>
    cases hw : Exec.mustWait m address with
    | true =>
      simp only [run, accesses, Exec.write_of_mustWait hw]
      exact ⟨m, .refl m, .inl ⟨.wait, rfl⟩⟩
    | false =>
      have ha : isRegister address = false := by rwa [Exec.mustWait_of_sync hm] at hw
      exact (hp.resolve_left (by simp [probing, ha])).1.elim

/-! ### Finding the operand -/

theorem fetch_probing {i : Nat} (hi : i < 3) (hc : c.pc = pc + .ofNat i) :
    fetch.Obeys (probing mode pc) (fun _ c' => c' = { c with pc := pc + .ofNat (i + 1) }) c := by
  have hnext : c.pc + 1 = pc + .ofNat (i + 1) := by rw [hc, UInt16.add_assoc, UInt16.ofNat_add]; rfl
  refine .inr ⟨.inr ⟨i, hi, by rw [hc]⟩, fun _ => ⟨⟨rfl, .refl mode _⟩, ?_⟩⟩
  simp [Obeys, bind, hnext]

theorem fetchWord_probing (hc : c.pc = pc + 1) :
    fetchWord.Obeys (probing mode pc) (fun _ c' => c' = { c with pc := pc + 3 }) c := by
  refine (fetch_probing (i := 1) (by decide) hc).bind fun _ c' h => ?_
  subst h
  exact (fetch_probing (i := 2) (by decide) rfl).bind fun _ c'' h => h

theorem readWordInPage_probing (low : UInt8) (c : Core) :
    (readWordInPage low.toUInt16).Obeys (probing mode pc) (fun _ c' => c' = c) c := by
  refine .inr ⟨.inl (highByte_toUInt16 low), fun _ => .inr ⟨.inl ?_, fun _ => rfl⟩⟩
  exact (highByte_wordOf _ _).trans (highByte_toUInt16 low)

theorem modifyOperand_probing {f : Operand → Operand} (hf : ∀ o, mode.Keeps o (f o)) (c : Core) :
    (modifyOperand f).Obeys (probing mode pc) (fun _ c' => c'.pc = c.pc) c :=
  ⟨⟨rfl, hf _⟩, rfl⟩

theorem resolve_probing (hm : mode ≠ .indirect) (hc : c.pc = pc + 1) :
    (resolve mode).Obeys (probing mode pc) (fun _ _ => True) c := by
  have last {f : Operand → Operand} (hf : ∀ o, mode.Keeps o (f o)) (c : Core) :
    (modifyOperand f).Obeys (probing mode pc) (fun _ _ => True) c := ⟨⟨rfl, hf _⟩, trivial⟩
  have keeps (o : Operand) : mode.Keeps o { o with mode := mode } := by simp [Mode.Keeps]
  refine (modifyOperand_probing keeps c).bind fun _ c' hc' => ?_
  replace hc := hc'.trans hc
  have byte : fetch.Obeys (probing mode pc) (fun _ d => d = { c' with pc := pc + 2 }) c' :=
    fetch_probing (i := 1) (by decide) hc
  have word : fetchWord.Obeys (probing mode pc) (fun _ d => d = { c' with pc := pc + 3 }) c' :=
    fetchWord_probing hc
  cases mode with
  | implied => exact last (fun _ => ⟨rfl, rfl⟩) c'
  | accumulator => exact last (fun _ => ⟨rfl, rfl⟩) c'
  | immediate => exact byte.bind fun _ c _ => last (fun _ => ⟨rfl, rfl⟩) c
  | zeroPage => exact byte.bind fun _ c _ => last (fun _ => rfl) c
  | zeroPageX => exact byte.bind fun _ c _ => last (fun _ => rfl) c
  | zeroPageY => exact byte.bind fun _ c _ => last (fun _ => rfl) c
  | relative => exact byte.bind fun _ c _ => last (fun _ => rfl) c
  | absolute => exact word.bind fun _ c _ => last (fun _ => rfl) c
  | absoluteX => exact word.bind fun _ c _ => last (fun _ => rfl) c
  | absoluteY => exact word.bind fun _ c _ => last (fun _ => rfl) c
  | indirect => exact absurd rfl hm
  | indexedIndirect =>
    exact byte.bind fun _ c _ =>
      (readWordInPage_probing _ c).bind fun _ c _ => last (fun _ => rfl) c
  | indirectIndexed =>
    exact byte.bind fun _ c _ =>
      (readWordInPage_probing _ c).bind fun _ c _ => last (fun _ => rfl) c

/-! ### Acting on it -/

theorem perform_interrupt_aside (h : isRegister c.pc = false) : (perform .interrupt).Aside c := by
  simp only [perform, core, bind_eq, bind, Aside, Obeys]
  split
  · trivial
  · exact .inr ⟨h, fun _ => ⟨trivial,
      (enterInterrupt_aside (by decide) (by decide) true _).bind fun _ _ _ => trivial⟩⟩

/-- An action whose operand or whose next byte is a register stops at its first access; every other
action keeps away from the registers. -/
theorem perform_cases (mode : Mode) (pc : UInt16) (action : Action) (c : Core) :
    (perform action).Obeys (probing mode pc) (fun _ _ => True) c ∨ (perform action).Aside c := by
  cases action with
  | compute f => exact .inr ⟨trivial, trivial⟩
  | load pays f =>
    cases hm : c.operand.mode.addressesMemory <;> cases ha : isRegister c.operand.address <;>
      simp [perform, readOperand, core, readByte, modifyRegs, modifyCore, bind, Obeys, hm, ha,
        aside, probing]
  | store byte settle =>
    cases ha : isRegister c.operand.address <;> cases hm : c.operand.mode <;>
      simp [perform, writeOperand, core, writeByte, modifyRegs, modifyCore, bind, Obeys, hm, ha,
        aside, probing]
  | modify byte settle =>
    cases ha : isRegister c.operand.address <;> cases hm : c.operand.mode <;>
      simp [perform, readOperand, writeOperand, core, readByte, writeByte, modifyRegs, modifyCore,
        bind, Obeys, hm, ha, aside, probing, Mode.addressesMemory]
  | branch taken =>
    right
    simp only [perform, core, bind_eq, bind, Aside, Obeys]
    split <;> simp [goto, modifyCore, bind, Obeys, aside]
  | jump => exact .inr ⟨trivial, trivial⟩
  | call => exact .inr ((call_aside c).bind fun _ _ _ => trivial)
  | returnFromCall => exact .inr ((popWord_aside c).bind fun _ _ _ => ⟨trivial, trivial⟩)
  | returnFromInterrupt =>
    exact .inr ((pop_aside c).bind fun _ c _ =>
      ⟨trivial, (popWord_aside _).bind fun _ _ _ => ⟨trivial, trivial⟩⟩)
  | interrupt =>
    cases ha : isRegister c.pc with
    | true =>
      refine .inl ?_
      simp only [perform, core, bind_eq, bind, Obeys]
      split
      · trivial
      · exact .inl ha
    | false => exact .inr (perform_interrupt_aside ha)
  | push byte => exact .inr ((push_aside _ c).bind fun _ _ _ => trivial)
  | pull f => exact .inr ((pop_aside c).bind fun _ _ _ => ⟨trivial, trivial⟩)
  | jam => exact .inr trivial

/-! ### Instructions -/

/-- Where a program has to wait, it has left an attempt behind. -/
def Tidy (κ : Type) [Cartridge κ] (mode : Mode) (pc : UInt16) (p : Program α) (c : Core) : Prop :=
  ∀ m m' : Machine κ, m.cpu.toCore = c → m.cpu.sync.mustWait = true →
    p.run m = .error .wait m' → Attempt mode pc m m' (p.accesses m)

namespace Tidy

variable {p : Program α} {f : α → Program β} {Q : α → Core → Prop}

theorem of_aside (h : p.Aside c) : p.Tidy κ mode pc c := by
  rintro m m' rfl - hrun
  exact absurd hrun h.run_ne_wait

theorem of_probing (h : p.Obeys (probing mode pc) Q c) : p.Tidy κ mode pc c := by
  rintro m m' rfl hm hrun
  obtain ⟨m₁, hleft, ⟨t, h₁⟩ | ⟨a, h₁, -⟩⟩ := h.attempt hm
  · rw [h₁] at hrun
    cases hrun
    exact hleft
  · rw [h₁] at hrun
    cases hrun

/-- Probing first does no harm. -/
theorem bind (hp : p.Obeys (probing mode pc) Q c)
    (hf : ∀ a c', Q a c' → (f a).Tidy κ mode pc c') : (p.bind f).Tidy κ mode pc c := by
  rintro m m' rfl hm hrun
  rw [run_bind] at hrun
  rw [accesses_bind]
  obtain ⟨m₁, hleft, ⟨t, h₁⟩ | ⟨a, h₁, ha⟩⟩ := hp.attempt hm
  · rw [h₁] at hrun ⊢
    cases hrun
    simpa using hleft
  · rw [h₁] at hrun ⊢
    have hm₁ : m₁.cpu.sync.mustWait = true := by rw [hleft.cpu]; exact hm
    exact hleft.trans (hf a _ ha m₁ m' rfl hm₁ hrun)

/-- Neither does keeping away from the registers afterwards. -/
theorem bind_aside (hp : p.Tidy κ mode pc c) (hf : ∀ a c', (f a).Aside c') :
    (p.bind f).Tidy κ mode pc c := by
  intro m m' hc hm hrun
  rw [run_bind] at hrun
  rw [accesses_bind]
  cases h₁ : p.run m with
  | ok a m₁ =>
    rw [h₁] at hrun
    exact absurd hrun (hf a _).run_ne_wait
  | error t m₁ =>
    rw [h₁] at hrun
    cases hrun
    simpa using hp m _ hc hm h₁

end Tidy

/-- Both bytes of a word in a page are registers, or neither is. -/
theorem readWordInPage_tidy (address : UInt16) (c : Core) :
    (readWordInPage address).Tidy κ mode pc c := by
  cases h : isRegister address with
  | true => exact .of_probing (Q := fun _ _ => False) (.inl h)
  | false =>
    refine .of_aside (readPair_aside h ?_ c)
    rw [isRegister_eq_page, highByte_wordOf, ← isRegister_eq_page, h]

/-- Finding the operand is only half of a jump through a pointer: the pointer may lead anywhere. -/
theorem resolve_indirect_tidy (hc : c.pc = pc + 1) :
    (resolve .indirect).Tidy κ .indirect pc c := by
  have keeps (o : Operand) : Mode.indirect.Keeps o { o with mode := .indirect } := rfl
  refine .bind (modifyOperand_probing keeps c) fun _ c' hc' => ?_
  refine .bind (fetchWord_probing (hc'.trans hc)) fun pointer c' _ => ?_
  exact (readWordInPage_tidy pointer c').bind_aside fun _ _ => ⟨trivial, trivial⟩

/-- Only jumps go through a pointer. -/
theorem jmp_of_indirect (opcode : UInt8) (h : (Encoding.decode opcode).mode = .indirect) :
    (Encoding.decode opcode).mnemonic = .jmp := by
  revert opcode
  decide +kernel

theorem allow_probing (undocumented : Bool) (opcode : UInt8) (c : Core) :
    (allow undocumented opcode).Obeys (probing mode pc) (fun _ c' => c' = c) c := by
  unfold allow
  split
  · rfl
  · trivial

/-- Whatever the opcode is, the instruction leaves no more than an attempt behind. -/
theorem execute_tidy (undocumented : Bool) (opcode : UInt8) (hc : c.pc = pc + 1) :
    (execute undocumented opcode).Tidy κ (Encoding.decode opcode).mode pc c := by
  refine .bind (allow_probing undocumented opcode c) fun _ c' h => ?_
  subst h
  refine .bind (Q := fun _ c'' => c'' = c') rfl fun _ c'' h => ?_
  subst h
  dsimp only
  by_cases hm : (Encoding.decode opcode).mode = .indirect
  · rw [hm, jmp_of_indirect opcode hm]
    exact (resolve_indirect_tidy hc).bind_aside fun _ _ => ⟨trivial, trivial⟩
  · refine .bind (resolve_probing hm hc) fun _ c' _ => ?_
    rcases perform_cases _ _ _ c' with h | h
    · exact .of_probing (Q := fun _ _ => True) (h.bind fun _ _ _ => trivial)
    · exact .of_aside (h.bind fun _ _ _ => trivial)

def opcodeAt (m : Machine κ) : UInt8 := (m.bus.read m.cpu.pc).1

/-- **An instruction that has to wait has only been attempted.** -/
theorem instruction_attempt {undocumented : Bool} (hm : m.cpu.sync.mustWait = true)
    (h : (instruction undocumented).run m = .error .wait m') :
    Attempt (Encoding.decode (opcodeAt m)).mode m.cpu.pc m m'
      ((instruction undocumented).accesses m) := by
  rw [instruction, bind_eq, run_bind] at h
  rw [instruction, bind_eq, accesses_bind]
  cases hw : Exec.mustWait m m.cpu.pc with
  | true =>
    obtain ⟨hrun, hacc⟩ := fetch_refused hw
    rw [hrun] at h ⊢
    cases h
    simpa [hacc] using Attempt.refl m
  | false =>
    obtain ⟨m₁, hleft, hend⟩ :=
      (fetch_probing (i := 0) (c := m.cpu.toCore) (by decide) (UInt16.add_zero _).symm).attempt hm
    rw [run_fetch hw] at h hend ⊢
    obtain rfl : fetched m = m₁ := by
      rcases hend with ⟨t, ht⟩ | ⟨a, ha, -⟩
      · cases ht
      · cases ha
        rfl
    exact hleft.trans (execute_tidy undocumented _ rfl (fetched m) m' rfl hm h)

end Program

namespace Machine

variable {κ : Type} [Cartridge κ] {m m' : Machine κ}

theorem interrupt_aside {vector : UInt16} (hl : isRegister vector = false)
    (hh : isRegister (vector + 1) = false) (c : Core) : (interrupt vector).Aside c :=
  (Program.enterInterrupt_aside hl hh false c).bind fun _ _ _ => trivial

/-- Only an instruction waits, never the entry of an interrupt. -/
theorem not_nmiDue_of_waits (h : m.step = (.waits, m')) : m.nmiDue = false := by
  obtain ⟨-, w, hrun, -⟩ := step_waits_iff.mp h
  cases hdue : m.nmiDue with
  | false => rfl
  | true =>
    rw [program_of_due hdue] at hrun
    exact absurd hrun (interrupt_aside (by decide) (by decide) _).run_ne_wait

theorem mustWait_of_waits (h : m.step = (.waits, m')) : m.cpu.sync.mustWait = true := by
  cases hm : m.cpu.sync.mustWait with
  | true => rfl
  | false => exact absurd (congrArg Prod.fst h) (step_ne_waits hm)

theorem sync_eq_of_mustWait (s : Sync) : s.mustWait = true ↔ s = ⟨true, false⟩ := by
  obtain ⟨awaiting, retrying⟩ := s
  simp [Sync.mustWait]

theorem run_of_waits (h : m.step = (.waits, m')) :
    m.accesses = (Program.instruction m.cpu.undocumented).accesses m ∧
      ∃ w, (Program.instruction m.cpu.undocumented).run m = .error .wait w ∧
        (w.takeBack m.cpu.pc).2 = m' := by
  have hdue := not_nmiDue_of_waits h
  obtain ⟨hh, hw⟩ := step_waits_iff.mp h
  rw [accesses_of_not_halted hh]
  rw [program_of_not_due hdue, takeNmi_of_not_due hdue] at hw ⊢
  exact ⟨rfl, hw⟩

/-- An instruction that has been read and keeps away from the registers does not wait. -/
theorem step_ne_waits_of_aside (hfetch : Exec.mustWait m m.cpu.pc = false)
    (h : (Program.execute m.cpu.undocumented (Program.opcodeAt m)).Aside
      { m.cpu.toCore with pc := m.cpu.pc + 1 }) : m.step.1 ≠ .waits := by
  intro hw
  obtain ⟨-, w, hrun, -⟩ := run_of_waits (Prod.ext hw rfl : m.step = (.waits, m.step.2))
  rw [Program.instruction, Program.bind_eq, Program.run_bind, Program.run_fetch hfetch] at hrun
  exact Program.Obeys.run_ne_wait (m := Program.fetched m) h hrun

theorem attempt_of_waits (h : m.step = (.waits, m')) :
    ∃ w, Program.Attempt (Encoding.decode (Program.opcodeAt m)).mode m.cpu.pc m w m.accesses ∧
      (w.takeBack m.cpu.pc).2 = m' := by
  obtain ⟨hacc, w, hrun, hw⟩ := run_of_waits h
  exact ⟨w, hacc ▸ Program.instruction_attempt (mustWait_of_waits h) hrun, hw⟩

theorem sync_of_waits (h : m.step = (.waits, m')) : m.cpu.sync = ⟨true, false⟩ :=
  (sync_eq_of_mustWait _).mp (mustWait_of_waits h)

theorem cpu_of_waits (h : m.step = (.waits, m')) :
    m'.cpu = { m.cpu with operand := m'.cpu.operand, sync := ⟨true, true⟩ } := by
  have hsync := sync_of_waits h
  obtain ⟨w, hw, rfl⟩ := attempt_of_waits h
  have hcpu := hw.cpu
  simp only [takeBack]
  rw [hcpu, hsync]

theorem bus_of_waits (h : m.step = (.waits, m')) : m'.bus = { m.bus with pads := m'.bus.pads } := by
  obtain ⟨w, hw, rfl⟩ := attempt_of_waits h
  exact hw.bus

/-- **Rollback is atomic.**  A step waits only where the picture may lag behind and the instruction
has not waited yet.  It leaves everything but the pads and what is known of the operand as it was,
and marks the instruction; the step after it does not wait, whatever the bus has become by then. -/
theorem step_waits_atomic (h : m.step = (.waits, m')) :
    m.cpu.sync = { awaiting := true, retrying := false } ∧
      m'.cpu = { m.cpu with
        operand := m'.cpu.operand, sync := { awaiting := true, retrying := true } } ∧
      m'.bus = { m.bus with pads := m'.bus.pads } ∧
      ∀ (bus : Bus κ) (journal : Journal), (step ⟨m'.cpu, bus, journal⟩).1 ≠ .waits := by
  refine ⟨sync_of_waits h, cpu_of_waits h, bus_of_waits h, fun bus journal => step_ne_waits ?_⟩
  show m'.cpu.sync.mustWait = false
  rw [cpu_of_waits h]
  rfl

/-- A machine that is about to read the status of the picture unit. -/
def statusLoad : Machine Board where
  cpu := { sync := { awaiting := true } }
  bus := { Bus.plug Board.blank with
    ram := (Vector.replicate _ 0).setIfInBounds 0 0xAD |>.setIfInBounds 1 0x02
      |>.setIfInBounds 2 0x20 }

theorem statusLoad_waits_atomic :
    statusLoad.step.1 = .waits ∧
      statusLoad.step.2.bus = { statusLoad.bus with pads := statusLoad.step.2.bus.pads } := by
  have hwaits : statusLoad.step.1 = .waits := by decide +kernel
  have h : statusLoad.step = (.waits, statusLoad.step.2) := by rw [← hwaits]
  exact ⟨hwaits, (step_waits_atomic h).2.2.1⟩

end Machine

end Famicom
