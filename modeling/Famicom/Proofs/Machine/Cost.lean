import Famicom.Proofs.Bus.Frame
import Famicom.Proofs.Machine.Step

/-!
# What a step costs

A step that runs takes at least two cycles and at most 520: the opcode matrix and the actions bound
what an instruction tells by eight (`program_cycles`), and of its writes one at most starts a
transfer, since the others go to the stack (`program_stall`).  `ran_of_step` puts both together with
what else such a step does to the processor, and `stopped_of_step` says what is left where the
processor stops.
-/

namespace Famicom

open Processor

/-- The most that an action adds to the cycles of its opcode. -/
def Processor.Action.mostExtra : Action → Nat
  | .load pays _ => if pays then 1 else 0
  | .branch _ => 2
  | .interrupt => 5
  | _ => 0

namespace Program

variable {α β κ : Type} [Cartridge κ]

/-! ### The cycles that a program tells -/

/-- Without rules nothing is asked for. -/
theorem Obeys.free (p : Program α) (c : Core) : p.Obeys {} (fun _ _ => True) c := by
  induction p generalizing c with
  | done a => trivial
  | jam => trivial
  | look next ih => exact ih c c
  | change f next ih => exact ⟨trivial, ih _⟩
  | note event next ih => exact ih c
  | read purpose address next ih => exact .inr ⟨trivial, fun byte => ih byte c⟩
  | write address byte next ih => exact .inr ⟨trivial, ih c⟩

/-- What a program ensures of its result holds of what `exec` says. -/
theorem Obeys.exec {p : Program α} {Q : α → Core → Prop} {c : Core} {b : Bus κ}
    (h : p.Obeys {} Q c) : ∀ a ∈ (p.exec c b).1, Q a (p.exec c b).2.1 := by
  induction p generalizing c b with
  | done a => simpa [Program.exec] using show Q a c from h
  | jam => simp [Program.exec]
  | look next ih => exact ih c h
  | change f next ih => exact ih h.2
  | note event next ih => exact ih h
  | read purpose address next ih => exact ih _ ((h.resolve_left Bool.false_ne_true).2 _)
  | write address byte next ih => exact ih (h.resolve_left Bool.false_ne_true).2

theorem pageCycle_le (o : Operand) : pageCycle o ≤ 1 := by
  unfold pageCycle
  split <;> omega

theorem perform_cycles (action : Action) (c : Core) :
    (perform action).Obeys {} (fun n _ => n ≤ action.mostExtra) c := by
  have zero (p : Program Unit) (c : Core) :
      (p.bind fun _ => .done 0).Obeys {} (fun n _ => n ≤ 0) c :=
    (Obeys.free p c).bind fun _ _ _ => Nat.le_refl 0
  cases action with
  | compute f => exact zero _ c
  | load pays f =>
    refine (Obeys.free _ c).bind fun _ c _ => (Obeys.free _ c).bind fun _ c _ => ?_
    have := pageCycle_le c.operand
    show (if pays then pageCycle c.operand else 0) ≤ if pays then 1 else 0
    split <;> omega
  | store byte settle =>
    exact (Obeys.free core c).bind fun _ c _ => (Obeys.free _ c).bind fun _ c _ => zero _ c
  | modify byte settle =>
    refine (Obeys.free _ c).bind fun _ c _ => (Obeys.free core c).bind fun _ c _ => ?_
    exact (Obeys.free _ c).bind fun _ c _ => zero _ c
  | branch taken =>
    refine (Obeys.free core c).bind fun c' c _ => ?_
    have := pageCycle_le c'.operand
    split
    · refine (Obeys.free _ c).bind fun _ _ _ => ?_
      show 1 + pageCycle c'.operand ≤ 2
      omega
    · exact Nat.zero_le 2
  | jump => exact (Obeys.free core c).bind fun _ c _ => zero _ c
  | call => exact zero _ c
  | returnFromCall => exact (Obeys.free _ c).bind fun _ c _ => zero _ c
  | returnFromInterrupt =>
    refine (Obeys.free _ c).bind fun _ c _ => (Obeys.free _ c).bind fun _ c _ => ?_
    exact (Obeys.free _ c).bind fun _ c _ => zero _ c
  | interrupt =>
    refine (Obeys.free core c).bind fun c' c _ => ?_
    split
    · exact Nat.zero_le 5
    · refine (Obeys.free _ c).bind fun _ c _ => (Obeys.free _ c).bind fun _ c _ => ?_
      exact Nat.le_refl 5
  | push byte => exact (Obeys.free core c).bind fun _ c _ => zero _ c
  | pull f => exact (Obeys.free _ c).bind fun _ c _ => zero _ c
  | jam => trivial

/-- No opcode takes more than eight cycles, whatever is added to them. -/
theorem encoding_cycles (opcode : UInt8) :
    let e := Encoding.decode opcode
    2 ≤ e.cycles ∧ e.cycles + (e.mnemonic.action e.mode).mostExtra ≤ 8 := by
  revert opcode
  decide +kernel

theorem execute_cycles (undocumented : Bool) (opcode : UInt8) (c : Core) :
    (execute undocumented opcode).Obeys {} (fun n _ => 2 ≤ n ∧ n ≤ 8) c := by
  have he := encoding_cycles opcode
  dsimp only at he
  refine (Obeys.free _ c).bind fun _ c _ => (Obeys.free _ c).bind fun _ c _ => ?_
  refine (Obeys.free _ c).bind fun _ c _ => (perform_cycles _ c).bind fun extra _ hextra => ?_
  show 2 ≤ (Encoding.decode opcode).cycles + extra ∧ (Encoding.decode opcode).cycles + extra ≤ 8
  omega

theorem instruction_cycles (undocumented : Bool) (c : Core) :
    (instruction undocumented).Obeys {} (fun n _ => 2 ≤ n ∧ n ≤ 8) c :=
  (Obeys.free _ c).bind fun _ c _ => execute_cycles undocumented _ c

/-! ### The cycles that transfers hold the bus -/

/-- A program comes to a result after at most `k` writes that may start a transfer, whatever is
read. -/
def Ends : Program α → Nat → Prop
  | .done _, _ => True
  | .jam, _ => False
  | .look next, k => ∀ c, (next c).Ends k
  | .change _ next, k => next.Ends k
  | .note _ next, k => next.Ends k
  | .read _ _ next, k => ∀ byte, (next byte).Ends k
  | .write address _ next, k => address ≠ 0x4014 ∧ next.Ends k ∨ ∃ j < k, next.Ends j

namespace Ends

variable {p : Program α} {f : α → Program β} {k n : Nat}

theorem mono (h : p.Ends k) (hk : k ≤ n) : p.Ends n := by
  induction p generalizing k n with
  | done a => trivial
  | jam => exact h.elim
  | look next ih => exact fun c => ih c (h c) hk
  | change f next ih => exact ih h hk
  | note event next ih => exact ih h hk
  | read purpose address next ih => exact fun byte => ih byte (h byte) hk
  | write address byte next ih =>
    rcases h with ⟨ha, hnext⟩ | ⟨j, hj, hnext⟩
    · exact .inl ⟨ha, ih hnext hk⟩
    · exact .inr ⟨j, by omega, hnext⟩

theorem bind (hp : p.Ends k) (hf : ∀ a, (f a).Ends n) : (p.bind f).Ends (n + k) := by
  induction p generalizing k with
  | done a => exact (hf a).mono (by omega)
  | jam => exact hp.elim
  | look next ih => exact fun c => ih c (hp c)
  | change g next ih => exact ih hp
  | note event next ih => exact ih hp
  | read purpose address next ih => exact fun byte => ih byte (hp byte)
  | write address byte next ih =>
    rcases hp with ⟨ha, hnext⟩ | ⟨j, hj, hnext⟩
    · exact .inl ⟨ha, ih hnext⟩
    · exact .inr ⟨n + j, by omega, ih hnext⟩

/-- There is a result, and each of those writes can have held the bus for one transfer. -/
theorem exec {c : Core} {b : Bus κ} (h : p.Ends k) :
    (∃ a, (p.exec c b).1 = some a) ∧
      (p.exec c b).2.2.stall ≤ b.stall + Bus.transferCycles * k := by
  induction p generalizing k c b with
  | done a => exact ⟨⟨a, rfl⟩, Nat.le_add_right _ _⟩
  | jam => exact h.elim
  | look next ih => exact ih c (h c)
  | change f next ih => exact ih h
  | note event next ih => exact ih h
  | read purpose address next ih =>
    have hread : (b.read address).2.stall = b.stall := Bus.read_stall
    exact hread ▸ ih _ (h _)
  | write address byte next ih =>
    rcases h with ⟨ha, hnext⟩ | ⟨j, hj, hnext⟩
    · have hwrite : (b.write address byte).stall = b.stall := Bus.write_stall ha
      exact hwrite ▸ ih hnext
    · obtain ⟨hsome, hle⟩ := ih (b := b.write address byte) hnext
      refine ⟨hsome, ?_⟩
      calc (next.exec c (b.write address byte)).2.2.stall
          ≤ (b.write address byte).stall + Bus.transferCycles * j := hle
        _ ≤ b.stall + Bus.transferCycles + Bus.transferCycles * j :=
          Nat.add_le_add_right (b.write_stall_le address byte) _
        _ ≤ b.stall + Bus.transferCycles * k := by
          have := Nat.mul_le_mul_left Bus.transferCycles (show j + 1 ≤ k from hj)
          rw [Nat.mul_succ] at this
          omega

end Ends

theorem core_ends : core.Ends 0 := fun _ => trivial

theorem fetch_ends : fetch.Ends 0 := fun _ _ => trivial

theorem readByte_ends (address : UInt16) : (readByte address).Ends 0 := fun _ => trivial

theorem readPair_ends (low high : UInt16) : (readPair low high).Ends 0 := fun _ _ => trivial

theorem modifyCore_ends (f : Core → Core) : (modifyCore f).Ends 0 := trivial

theorem fetchWord_ends : fetchWord.Ends 0 := fun _ _ _ _ => trivial

theorem pop_ends : pop.Ends 0 := fun _ _ => trivial

theorem popWord_ends : popWord.Ends 0 := fun _ _ _ _ => trivial

theorem stackAddress_ne_transfer (c : Core) : c.stackAddress ≠ 0x4014 := by
  intro h
  have hpage := congrArg highByte h
  rw [Core.highByte_stackAddress] at hpage
  exact absurd hpage (by decide)

/-- The stack is out of reach of a transfer. -/
theorem push_ends (byte : UInt8) : (push byte).Ends 0 :=
  fun c => .inl ⟨stackAddress_ne_transfer c, trivial⟩

theorem pushWord_ends (w : UInt16) : (pushWord w).Ends 0 :=
  (push_ends _).bind fun _ => push_ends _

theorem enterInterrupt_ends (vector : UInt16) (byInstruction : Bool) :
    (enterInterrupt vector byInstruction).Ends 0 := by
  refine core_ends.bind fun c => (pushWord_ends _).bind fun _ => (push_ends _).bind fun _ => ?_
  exact (modifyCore_ends _).bind fun _ => (readPair_ends _ _).bind fun _ => modifyCore_ends _

theorem call_ends : call.Ends 0 := by
  refine core_ends.bind fun c => (pushWord_ends _).bind fun _ => ?_
  split
  · exact (readByte_ends _).bind fun _ => modifyCore_ends _
  · exact modifyCore_ends _

theorem resolve_ends (mode : Mode) : (resolve mode).Ends 0 := by
  have word (b : UInt16) : (readWordInPage b).Ends 0 := readPair_ends _ _
  refine (modifyCore_ends _).bind fun _ => ?_
  cases mode with
  | implied => exact modifyCore_ends _
  | accumulator => exact core_ends.bind fun _ => modifyCore_ends _
  | immediate | zeroPage => exact fetch_ends.bind fun _ => modifyCore_ends _
  | zeroPageX | zeroPageY | relative =>
    exact fetch_ends.bind fun _ => core_ends.bind fun _ => modifyCore_ends _
  | absolute => exact fetchWord_ends.bind fun _ => modifyCore_ends _
  | absoluteX | absoluteY =>
    exact fetchWord_ends.bind fun _ => core_ends.bind fun _ => modifyCore_ends _
  | indirect => exact fetchWord_ends.bind fun _ => (word _).bind fun _ => modifyCore_ends _
  | indexedIndirect =>
    refine fetch_ends.bind fun _ => core_ends.bind fun _ => ?_
    exact (word _).bind fun _ => modifyCore_ends _
  | indirectIndexed =>
    refine fetch_ends.bind fun _ => (word _).bind fun _ => ?_
    exact core_ends.bind fun _ => modifyCore_ends _

theorem readOperand_ends : readOperand.Ends 0 := by
  refine core_ends.bind fun c => ?_
  split
  · exact readByte_ends _
  · trivial

theorem writeOperand_ends (byte : UInt8) : (writeOperand byte).Ends 1 := by
  refine core_ends.bind fun c => ?_
  split
  · trivial
  · trivial
  · exact .inr ⟨0, by decide, trivial⟩

theorem perform_ends {action : Action} (ha : action ≠ .jam) : (perform action).Ends 1 := by
  have zero (p : Program Unit) (h : p.Ends 0) : (p.bind fun _ => .done 0).Ends 1 :=
    (h.mono (Nat.zero_le 1)).bind (n := 0) fun _ => trivial
  cases action with
  | compute f => exact zero _ (modifyCore_ends _)
  | load pays f =>
    refine readOperand_ends.bind fun _ => (modifyCore_ends _).bind fun _ => ?_
    exact core_ends.bind fun _ => trivial
  | store byte settle =>
    refine core_ends.bind fun _ => (writeOperand_ends _).bind (n := 0) fun _ => ?_
    exact (modifyCore_ends _).bind fun _ => trivial
  | modify byte settle =>
    refine readOperand_ends.bind fun _ => core_ends.bind fun _ =>
      (writeOperand_ends _).bind (n := 0) fun _ => ?_
    exact (modifyCore_ends _).bind fun _ => trivial
  | branch taken =>
    refine core_ends.bind fun c => ?_
    split
    · trivial
    · trivial
  | jump => exact fun _ => trivial
  | call => exact zero _ call_ends
  | returnFromCall => exact popWord_ends.bind fun _ => zero _ (modifyCore_ends _)
  | returnFromInterrupt =>
    refine pop_ends.bind fun _ => (modifyCore_ends _).bind fun _ => ?_
    exact popWord_ends.bind fun _ => zero _ (modifyCore_ends _)
  | interrupt =>
    refine core_ends.bind fun c => ?_
    split
    · trivial
    · exact fetch_ends.bind fun _ => (enterInterrupt_ends _ _).bind fun _ => trivial
  | push byte => exact core_ends.bind fun _ => zero _ (push_ends _)
  | pull f => exact pop_ends.bind fun _ => zero _ (modifyCore_ends _)
  | jam => exact absurd rfl ha

/-- What an opcode adds to the cycles for which transfers hold the bus; where it stops the
processor, it adds nothing. -/
theorem execute_stall (undocumented : Bool) (opcode : UInt8) (c : Core) (b : Bus κ) :
    let r := (execute undocumented opcode).exec c b
    (r.1 = none → r.2.2.stall ≤ b.stall) ∧ r.2.2.stall ≤ b.stall + 512 := by
  intro r
  cases ha : allowed undocumented opcode with
  | false =>
    have hr : r = (none, c, b) := by simp [r, execute, allow, ha, bind, exec]
    rw [hr]
    exact ⟨fun _ => Nat.le_refl _, Nat.le_add_right _ _⟩
  | true =>
    have hr : r = ((resolve (Encoding.decode opcode).mode).bind fun _ =>
        (perform ((Encoding.decode opcode).mnemonic.action (Encoding.decode opcode).mode)).bind
          fun extra => .done ((Encoding.decode opcode).cycles + extra)).exec c b := by
      simp [r, execute, allow, ha, bind, exec, record]
    have hresolve := resolve_ends (Encoding.decode opcode).mode
    by_cases hj : (Encoding.decode opcode).mnemonic.action (Encoding.decode opcode).mode = .jam
    · obtain ⟨⟨a, hsome⟩, hle⟩ := hresolve.exec (c := c) (b := b)
      rw [hj, exec_bind] at hr
      rcases h : (resolve (Encoding.decode opcode).mode).exec c b with ⟨_ | _, c', b'⟩ <;>
        rw [h] at hr hsome hle
      · cases hsome
      · rw [hr]
        exact ⟨fun _ => hle, Nat.le_trans hle (Nat.add_le_add_left (Nat.zero_le _) _)⟩
    · have hends := hresolve.bind fun _ => (perform_ends hj).bind (n := 0)
        (f := fun extra => .done ((Encoding.decode opcode).cycles + extra)) fun _ => trivial
      obtain ⟨⟨a, hsome⟩, hle⟩ := hends.exec (c := c) (b := b)
      rw [hr]
      refine ⟨fun hnone => ?_, hle⟩
      rw [hnone] at hsome
      cases hsome

end Program

namespace Machine

variable {κ : Type} {m m' : Machine κ}

theorem program_cycles (m : Machine κ) (c : Core) :
    m.program.Obeys {} (fun n _ => 2 ≤ n ∧ n ≤ 8) c := by
  unfold program
  split
  · exact (Program.Obeys.free _ c).bind fun _ _ _ => (by decide : 2 ≤ 7 ∧ 7 ≤ 8)
  · exact Program.instruction_cycles _ c

/-! ### Steps -/

/-- A step that ran for `n` cycles from `m` to `m'`. -/
structure Ran (n : Nat) (m m' : Machine κ) : Prop where
  not_halted : m.cpu.halted = false
  two_le : 2 ≤ n
  le : n ≤ m.bus.stall + 520
  cycles : m'.cpu.cycles = m.cpu.cycles + .ofNat n
  sync : m'.cpu.sync = { m.cpu.sync with retrying := false }
  halted : m'.cpu.halted = false
  stall : m'.bus.stall = 0

theorem Ran.toNat_cycles {n : Nat} (h : Ran n m m')
    (hroom : m.cpu.cycles.toNat + n < UInt32.size) :
    m'.cpu.cycles.toNat = m.cpu.cycles.toNat + n := by
  have hsize : UInt32.size = 4294967296 := rfl
  rw [h.cycles, UInt32.toNat_add]
  simp
  omega

/-- A step that begins before the end of a phase of `r` cycles ends at most 519 cycles after it, if
the ticks of the phase can be counted. -/
theorem Ran.counted {n r : Nat} (h : Ran n m m') (hstall : m.bus.stall = 0)
    (hr : 3 * r < UInt32.size) (hlt : m.cpu.cycles.toNat < r) :
    m'.cpu.cycles.toNat = m.cpu.cycles.toNat + n ∧ m'.cpu.cycles.toNat ≤ r + 519 := by
  have hn : n ≤ 520 := by simpa [hstall] using h.le
  have hcycles : m'.cpu.cycles.toNat = m.cpu.cycles.toNat + n := by
    apply h.toNat_cycles
    simp only [UInt32.size] at hr ⊢
    omega
  exact ⟨hcycles, by omega⟩

/-- A step after which the processor stands still. -/
structure Stopped (m m' : Machine κ) : Prop where
  halted : m'.cpu.halted = true
  sync : m'.cpu.sync = m.cpu.sync
  stall : m'.bus.stall ≤ m.bus.stall

theorem takeNmi_stall (m : Machine κ) : m.takeNmi.bus.stall = m.bus.stall := by
  unfold takeNmi
  split <;> rfl

variable [Cartridge κ]

theorem program_stall (m : Machine κ) (c : Core) (b : Bus κ) :
    let r := m.program.exec c b
    (r.1 = none → r.2.2.stall ≤ b.stall) ∧ r.2.2.stall ≤ b.stall + 512 := by
  intro r
  cases hdue : m.nmiDue with
  | true =>
    have hends : m.program.Ends 0 := by
      rw [program_of_due hdue]
      exact (Program.enterInterrupt_ends _ _).bind fun _ => trivial
    obtain ⟨⟨a, hsome⟩, hle⟩ := hends.exec (c := c) (b := b)
    exact ⟨fun hnone => by simp [r, hsome] at hnone, Nat.le_trans hle (Nat.le_add_right _ _)⟩
  | false =>
    have hr : r = (Program.execute m.cpu.undocumented (b.read c.pc).1).exec
        { c with pc := c.pc + 1 } (b.read c.pc).2 := by
      simp only [r, program_of_not_due hdue]
      rfl
    have h := Program.execute_stall m.cpu.undocumented (b.read c.pc).1 { c with pc := c.pc + 1 }
      (b.read c.pc).2
    rw [← hr, Bus.read_stall] at h
    exact h

theorem step_of_ne_waits (hh : m.cpu.halted = false) (h : m.step.1 ≠ .waits) :
    ∃ j, m.step = finish m.cpu.pc
      (Program.outcome m.takeNmi j (m.program.exec m.cpu.toCore m.takeNmi.bus)) :=
  ((step_eq_exec hh).resolve_left h).2

/-- **What a step that ran does beyond the instruction.** -/
theorem ran_of_step {n : Nat} (h : m.step = (.ran n, m')) : Ran n m m' := by
  have hh : m.cpu.halted = false := by
    cases hh : m.cpu.halted with
    | false => rfl
    | true =>
      rw [step_of_halted hh] at h
      cases h
  obtain ⟨j, hj⟩ := step_of_ne_waits hh (by rw [h]; simp)
  have hcycles := (m.program_cycles m.cpu.toCore).exec (b := m.takeNmi.bus)
  have hstall := (m.program_stall m.cpu.toCore m.takeNmi.bus).2
  rw [takeNmi_stall] at hstall
  rcases hr : m.program.exec m.cpu.toCore m.takeNmi.bus with ⟨_ | k, c, b⟩ <;>
    rw [hr] at hj hcycles hstall <;> rw [hj] at h
  · cases h
  · obtain ⟨h2, h8⟩ := hcycles k rfl
    cases h
    refine ⟨hh, ?_, ?_, ?_, ?_, ?_, rfl⟩
    · show 2 ≤ k + b.stall
      omega
    · show k + b.stall ≤ m.bus.stall + 520
      have : b.stall ≤ m.bus.stall + 512 := hstall
      omega
    all_goals simp [hh]

/-- **What a step does that finds the processor stopped, or stops it.** -/
theorem stopped_of_step {pc : UInt16} (h : m.step = (.halted pc, m')) : Stopped m m' := by
  cases hh : m.cpu.halted with
  | true =>
    rw [step_of_halted hh] at h
    cases h
    exact ⟨hh, rfl, Nat.le_refl _⟩
  | false =>
    obtain ⟨j, hj⟩ := step_of_ne_waits hh (by rw [h]; simp)
    have hstall := (m.program_stall m.cpu.toCore m.takeNmi.bus).1
    rw [takeNmi_stall] at hstall
    rcases hr : m.program.exec m.cpu.toCore m.takeNmi.bus with ⟨_ | k, c, b⟩ <;>
      rw [hr] at hj hstall <;> rw [hj] at h
    · cases h
      refine ⟨rfl, ?_, hstall rfl⟩
      simp
    · cases h

end Machine

end Famicom
