import Famicom.Proofs.Console.Operations
import Famicom.Proofs.Machine.Registers

/-!
# Two flags that only copies have

The register of the flags has two bits that mean something in the copies on the stack alone.  They
always stand the same way: whatever a program takes from the stack for flags, the two are set right
(`Status.Settled`).  No action of an instruction disturbs that (`Lasts.settled`), so no step does
(`Lasts.step`), and nothing else that can happen to a processor (`status_settled`).
-/

namespace Famicom

open Picture Processor

variable {κ : Type} [Cartridge κ]

/-- Nothing that an instruction does to the registers takes a property of them away. -/
structure Processor.Lasts (I : Registers → Prop) : Prop where
  action (mnemonic : Mnemonic) (mode : Mode) (p : Status) : (mnemonic.action mode).Respects I p
  /-- the accumulator is no matter, nor is where the stack is -/
  accumulator (r : Registers) (v : UInt8) (h : I r) : I { r with a := v }
  stack : AnyStack I
  disable (r : Registers) (h : I r) : I { r with p := { r.p with interruptDisable := true } }

namespace Processor.Lasts

variable {I : Registers → Prop}

/-! ### The processor -/

theorem instruction (hI : Lasts I) {m : Machine κ} (h : I m.cpu.regs) :
    I ((Program.instruction m.cpu.undocumented).exec m.cpu.toCore m.bus).2.1.regs := by
  cases hallowed : Program.allowed m.cpu.undocumented (Program.opcodeAt m) with
  | false =>
    have hnone : (Program.instruction m.cpu.undocumented).exec m.cpu.toCore m.bus =
        (none, _, _) := Program.execute_of_not_allowed hallowed _ (m.bus.read m.cpu.pc).2
    rw [hnone]
    exact h
  | true =>
    rw [(Machine.instruction_located hallowed).1, Machine.acting_exec]
    refine (Program.perform_respecting (hI.action _ _ _) fun _ _ => hI.accumulator).exec ?_ _
    rwa [m.located_regs]

theorem step (hI : Lasts I) {m : Machine κ} (h : I m.cpu.regs) : I m.step.2.cpu.regs := by
  by_cases hw : m.step.1 = .waits
  · rw [Machine.cpu_of_waits (Prod.ext hw rfl : m.step = (.waits, m.step.2))]
    exact h
  cases hh : m.cpu.halted with
  | true => rwa [Machine.step_of_halted hh]
  | false =>
    rw [Machine.step_regs hh hw]
    cases hdue : m.nmiDue with
    | true =>
      rw [Machine.program_of_due hdue]
      exact (Machine.interrupt_respecting hI.stack hI.disable _ _).exec h _
    | false =>
      rw [Machine.program_of_not_due hdue, Machine.takeNmi_of_not_due hdue]
      exact hI.instruction h

theorem irq (hI : Lasts I) {m : Machine κ} (h : I m.cpu.regs) : I m.irq.2.cpu.regs := by
  unfold Machine.irq
  split
  · exact h
  · have haside : (Machine.interrupt Cpu.irqVector).Aside m.cpu.toCore :=
      (Program.enterInterrupt_aside (by decide) (by decide) _ _).bind fun _ _ _ => trivial
    obtain ⟨-, j, hj⟩ := ((Machine.interrupt Cpu.irqVector).run_eq_exec m).resolve_left
      fun ⟨_, hwait⟩ => haside.run_ne_wait hwait
    have hexec := (Machine.interrupt_respecting hI.stack hI.disable Cpu.irqVector
      m.cpu.toCore).exec h m.bus
    rw [hj]
    rcases hr : (Machine.interrupt Cpu.irqVector).exec m.cpu.toCore m.bus with ⟨_ | k, c, b⟩ <;>
      rwa [hr] at hexec

theorem burst (hI : Lasts I) (budget : Nat) {m : Machine κ} (h : I m.cpu.regs) :
    I (m.burst budget).2.cpu.regs :=
  walk_keeps (P := fun m : Machine κ => I m.cpu.regs) (fun _ => hI.step) budget 0 h

/-! ### The console -/

variable {σ : Type} [PixelSink σ]

/-- Neither drawing nor counting has to do with the registers. -/
theorem frame (hI : Lasts I) {c : Console κ} (h : I c.machine.cpu.regs) (sink : σ) :
    I (c.runFrame sink).2.1.machine.cpu.regs := by
  refine Console.runFrame_keeps (P := fun m => I m.cpu.regs) (fun _ => hI.step) (fun _ _ _ h => h)
    (fun m cpu hcore _ hm => ?_) h sink
  show I cpu.toCore.regs
  rwa [hcore]

end Processor.Lasts

/-! ### The two flags -/

/-- The two flags stand as they do in the register. -/
def Processor.Status.Settled (p : Status) : Prop := p.reserved = true ∧ p.brk = false

theorem Processor.Status.Settled.bits {p : Status} (h : p.Settled) :
    bit p.toByte 5 = true ∧ bit p.toByte 4 = false := by
  obtain ⟨-, -, h5, h4, -⟩ := bit_byteOf p.negative p.overflow p.reserved p.brk p.decimal
    p.interruptDisable p.zero p.carry
  exact ⟨h5.trans h.1, h4.trans h.2⟩

theorem Processor.Lasts.settled : Lasts fun r => r.p.Settled where
  action mnemonic mode p := by
    cases mnemonic <;> first
      | exact trivial
      | exact fun _ hr => hr
      | exact fun _ _ hr => hr
      | exact fun _ _ _ hr => hr
      | exact ⟨fun _ _ hr => hr, fun _ _ hr => hr⟩
      | exact ⟨fun _ _ hr => hr, fun _ _ _ => ⟨rfl, rfl⟩⟩
      | exact fun _ => ⟨fun _ _ hr => hr, fun _ hr => hr⟩
  accumulator _ _ h := h
  stack _ _ h := h
  disable _ h := h

/-- What can happen to a processor on a bus: it is asked for something, or something else is done to
the bus, or it is part of a console that is used. -/
inductive Happening (κ : Type) : Type 1 where
  | step
  | burst (budget : Nat)
  | irq
  | resetCpu
  | bus (b : Bus κ)
  /-- the picture may lag behind from now on, or may not -/
  | awaiting (flag : Bool)
  | undocumented (flag : Bool)
  | use (op : Operation)

namespace Console

def onMachine (c : Console κ) (f : Machine κ → Machine κ) : Console κ :=
  { c with machine := f c.machine }

def onCpu (c : Console κ) (f : Cpu → Cpu) : Console κ :=
  c.onMachine fun m => { m with cpu := f m.cpu }

def undergo (c : Console κ) : Happening κ → Console κ
  | .step => c.onMachine (·.step.2)
  | .burst budget => c.onMachine fun m => (m.burst budget).2
  | .irq => c.onMachine (·.irq.2)
  | .resetCpu => c.onMachine (·.resetCpu)
  | .bus b => c.onBus fun _ => b
  | .awaiting flag => c.onCpu (·.setAwaiting flag)
  | .undocumented flag => c.onCpu fun cpu => { cpu with undocumented := flag }
  | .use op => c.perform op

def history (c : Console κ) (happenings : List (Happening κ)) : Console κ :=
  happenings.foldl undergo c

/-- A console whose processor has just been made, on some bus. -/
def fresh (b : Bus κ) (settings : Settings) (journal : Journal) : Console κ where
  machine := { cpu := {}, bus := b, journal }
  settings := settings

/-- The flags are settled, and so are those that were put aside. -/
structure Settled (c : Console κ) : Prop where
  now : c.machine.cpu.regs.p.Settled
  saved : ∀ s, c.snapshot = some s → s.cpu.regs.p.Settled

theorem initial_settled : Status.initial.Settled := ⟨rfl, rfl⟩

theorem Settled.perform {c : Console κ} (h : c.Settled) (op : Operation) :
    (c.perform op).Settled := by
  cases op with
  | frame sink =>
    rw [Console.perform]
    refine ⟨Lasts.settled.frame h.now sink, ?_⟩
    rw [(runFrame_settings c sink).2]
    exact h.saved
  | reset => exact ⟨initial_settled, h.saved⟩
  | save =>
    refine ⟨h.now, fun s hs => ?_⟩
    cases hs
    exact h.now
  | restore =>
    obtain heq | ⟨s, journal, hs, heq⟩ := c.perform_restore_eq
    · rwa [heq]
    · rw [heq]
      exact ⟨h.saved s hs, fun _ hnone => by cases hnone⟩
  | arm code =>
    obtain ⟨genie, journal, heq⟩ := c.perform_arm_eq code
    rw [heq]
    exact ⟨h.now, h.saved⟩
  | disarm =>
    obtain ⟨genie, journal, heq⟩ := c.perform_disarm_eq
    rw [heq]
    exact ⟨h.now, h.saved⟩
  | connect socket pad => exact ⟨h.now, h.saved⟩
  | disconnect socket => exact ⟨h.now, h.saved⟩

theorem Settled.undergo {c : Console κ} (h : c.Settled) (o : Happening κ) :
    (c.undergo o).Settled := by
  cases o with
  | step => exact ⟨Lasts.settled.step h.now, h.saved⟩
  | burst budget => exact ⟨Lasts.settled.burst budget h.now, h.saved⟩
  | irq => exact ⟨Lasts.settled.irq h.now, h.saved⟩
  | resetCpu => exact ⟨initial_settled, h.saved⟩
  | bus b => exact ⟨h.now, h.saved⟩
  | awaiting flag => exact ⟨h.now, h.saved⟩
  | undocumented flag => exact ⟨h.now, h.saved⟩
  | use op => exact h.perform op

/-- **The two flags always stand the same way**, from a new processor on, whatever happens to it. -/
theorem status_settled (b : Bus κ) (settings : Settings) (journal : Journal)
    (happenings : List (Happening κ)) :
    let p := ((fresh b settings journal).history happenings).machine.cpu.regs.p
    bit p.toByte 5 = true ∧ bit p.toByte 4 = false := by
  have hsettled (c : Console κ) (h : c.Settled) : (c.history happenings).Settled := by
    induction happenings generalizing c with
    | nil => exact h
    | cons o happenings ih => exact ih _ (h.undergo o)
  exact (hsettled _ ⟨initial_settled, fun _ hnone => by cases hnone⟩).now.bits

end Console

end Famicom
