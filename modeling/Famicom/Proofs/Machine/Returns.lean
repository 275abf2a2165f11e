import Famicom.Proofs.Machine.Entry
import Famicom.Proofs.Machine.Instructions

/-!
# Going somewhere and back

There are four ways to go somewhere in order to come back: an interrupt of the picture unit, an
interrupt from outside, the instruction that asks for one, and a call (`Entry`).  Each leaves the
way back on the stack, and the instruction that goes back finds it there (`Interrupted.returns`,
`Called.returns`), wherever the stack pointer is and however it wraps around.  So the processor goes
on where it left off, with the registers it had (`entry_returns`).
-/

namespace Famicom

open Processor

variable {κ : Type} [Cartridge κ]

/-! ### Reading -/

namespace Bus

/-- From `b` to `b'` the bus was read: only the pads have changed and the picture unit, which is no
nearer to an interrupt. -/
structure OnlyRead (b b' : Bus κ) : Prop where
  eq : b' = { b with video := b'.video, pads := b'.pads }
  nmiPending : b'.video.regs.nmiPending = b.video.regs.nmiPending

namespace OnlyRead

variable {b b' b'' : Bus κ}

omit [Cartridge κ] in
theorem refl (b : Bus κ) : b.OnlyRead b := ⟨rfl, rfl⟩

omit [Cartridge κ] in
theorem trans (h : b.OnlyRead b') (h' : b'.OnlyRead b'') : b.OnlyRead b'' :=
  ⟨by rw [h'.eq, h.eq], h'.nmiPending.trans h.nmiPending⟩

theorem read (b : Bus κ) (address : UInt16) : b.OnlyRead (b.read address).2 := by
  unfold Bus.read
  split
  · exact refl b
  · rename_i name _
    exact ⟨rfl, by cases name <;> rfl⟩
  · exact ⟨rfl, rfl⟩
  · exact refl b
  · exact refl b

theorem after {accesses : List Access}
    (h : ∀ a ∈ accesses, ∃ purpose address, a = .read purpose address) (b : Bus κ) :
    b.OnlyRead (b.after accesses) := by
  induction accesses generalizing b with
  | nil => exact refl b
  | cons a accesses ih =>
    obtain ⟨purpose, address, rfl⟩ := h a (List.mem_cons_self ..)
    exact (read b address).trans (ih (fun a ha => h a (List.mem_cons_of_mem _ ha)) _)

omit [Cartridge κ] in
theorem ram (h : b.OnlyRead b') : b'.ram = b.ram := by rw [h.eq]

theorem readCartridge (h : b.OnlyRead b') (address : UInt16) :
    b'.readCartridge address = b.readCartridge address := by
  rw [h.eq]
  rfl

end OnlyRead

end Bus

theorem Machine.located_onlyRead (m : Machine κ) : m.bus.OnlyRead m.located.2 := by
  rw [m.located_spec.2.1]
  refine (Bus.OnlyRead.read m.bus m.cpu.pc).trans (Bus.OnlyRead.after ?_ _)
  unfold lookups
  cases m.encoding.mode <;> simp [finding]

/-! ### The stack -/

theorem wordOf_bytes (w : UInt16) : wordOf (highByte w) (lowByte w) = w := by
  apply UInt16.toNat_inj.mp
  rw [toNat_wordOf, toNat_highByte, toNat_lowByte]
  omega

/-- What goes through the stack comes back, with the two flags set right that only copies have. -/
theorem Processor.Status.pulled_pushed (p : Status) (byInstruction : Bool)
    (hreserved : p.reserved = true) (hbrk : p.brk = false) :
    Status.pulled (p.pushed byInstruction) = p := by
  rw [pulled, pushed, ofByte_toByte]
  dsimp only
  rw [← hreserved, ← hbrk]

namespace Program

section Moves

variable (c : Core) (b : Bus κ)

theorem returnFromCall_exec : (perform .returnFromCall).exec c b =
    (some 0,
      { c with
        pc := wordOf (b.onStack (c.regs.sp + 2)) (b.onStack (c.regs.sp + 1)) + 1
        regs := { c.regs with sp := c.regs.sp + 2 } }, b) := by
  have htwo (sp : UInt8) : sp + 1 + 1 = sp + 2 := by grind
  simp only [perform, popWord, goto, modifyCore, bind_eq, pure_eq, exec_bind, exec, pop_exec, htwo]

theorem returnFromInterrupt_exec : (perform .returnFromInterrupt).exec c b =
    (some 0,
      { c with
        pc := wordOf (b.onStack (c.regs.sp + 3)) (b.onStack (c.regs.sp + 2))
        regs := { c.regs with
          sp := c.regs.sp + 3
          p := .pulled (b.onStack (c.regs.sp + 1)) } }, b) := by
  have htwo (sp : UInt8) : sp + 1 + 1 = sp + 2 := by grind
  have hthree (sp : UInt8) : sp + 2 + 1 = sp + 3 := by grind
  simp only [perform, popWord, goto, modifyRegs, modifyCore, bind_eq, pure_eq, exec_bind, exec,
    pop_exec, htwo, hthree]

/-- Entering an interrupt by an instruction skips a byte. -/
theorem interrupt_exec (h : c.regs.p.interruptDisable = false) :
    (perform .interrupt).exec c b =
      (some 5,
        { c with
          pc := wordOf ((b.read c.pc).2.readCartridge (Cpu.irqVector + 1))
            ((b.read c.pc).2.readCartridge Cpu.irqVector)
          regs := { c.regs with
            sp := c.regs.sp - 3
            p := { c.regs.p with interruptDisable := true } } },
        (b.read c.pc).2.stacked c.regs.sp (c.pc + 1) (c.regs.p.pushed true)) := by
  show (if c.regs.p.interruptDisable then .done 0
    else fetch.bind fun _ => (enterInterrupt Cpu.irqVector true).bind fun _ => .done 5 :
      Program Nat).exec c b = _
  rw [if_neg (by rw [h]; exact Bool.false_ne_true)]
  show ((enterInterrupt Cpu.irqVector true).bind _).exec { c with pc := c.pc + 1 }
    (b.read c.pc).2 = _
  rw [exec_bind, enterInterrupt_exec rfl rfl]
  rfl

theorem lt_of_inStack {address : UInt16} (h : inStack address = true) : address < 0x2000 := by
  have hpage := congrArg UInt8.toNat (eq_of_beq h)
  rw [toNat_highByte] at hpage
  rw [UInt16.lt_iff_toNat_lt]
  show _ < 8192
  have : address.toNat / 256 = 1 := hpage
  omega

/-- Where a call goes: to its operand, the upper byte of which is read when the way back is on the
stack already. -/
def callTarget (c : Core) (b : Bus κ) : UInt16 :=
  let back := c.pc - 1
  if inStack back then
    wordOf ((b.linked c.regs.sp back).read back).1 (lowByte c.operand.address)
  else c.operand.address

theorem call_exec : (perform .call).exec c b =
    (some 0, { c with pc := callTarget c b, regs := { c.regs with sp := c.regs.sp - 2 } },
      b.linked c.regs.sp (c.pc - 1)) := by
  have htwo (sp : UInt8) : sp - 1 - 1 = sp - 2 := by grind
  have hpush : (pushWord (c.pc - 1)).exec c b =
      (some (), { c with regs := { c.regs with sp := c.regs.sp - 2 } },
        b.linked c.regs.sp (c.pc - 1)) := by
    simp only [pushWord, bind_eq, exec_bind, push_exec, htwo]
    rfl
  show (((pushWord (c.pc - 1)).bind _).bind _).exec c b = _
  rw [exec_bind, exec_bind, hpush, callTarget]
  cases hstack : inStack (c.pc - 1) with
  | true =>
    simp only [if_true, bind_eq, readByte, bind, exec, Bus.read_memory (lt_of_inStack hstack)]
    rfl
  | false => rfl

end Moves

end Program

namespace Machine

variable {m w : Machine κ}

/-! ### Going on -/

/-- The processor is running, does not mind the picture, and no interrupt of the picture unit is
pending. -/
structure Quiet (m : Machine κ) : Prop where
  running : m.cpu.halted = false
  awaiting : m.cpu.sync.awaiting = false
  nmiPending : m.bus.video.regs.nmiPending = false

omit [Cartridge κ] in
theorem Quiet.nmiDue (h : m.Quiet) : m.nmiDue = false := by simp [Machine.nmiDue, h.nmiPending]

omit [Cartridge κ] in
theorem not_mustWait (h : m.cpu.sync.awaiting = false) : m.cpu.sync.mustWait = false := by
  simp [Sync.mustWait, h]

/-- A quiet machine carries out a documented instruction. -/
theorem Quiet.step (h : m.Quiet) (action : Action) {e : Encoding} (he : m.encoding = e)
    (hdocumented : e.documented = true) (haction : e.mnemonic.action e.mode = action)
    (hjam : action ≠ .jam) :
    ∃ n w extra b, m.step = (.ran n, w) ∧
      (Program.perform action).exec m.located.1 m.located.2 = (some extra, w.cpu.toCore, b) ∧
      w.bus = b.takeStall.2 ∧ (b.video.regs.nmiPending = false → w.Quiet) := by
  subst he haction
  have hallowed : Program.allowed m.cpu.undocumented (Program.opcodeAt m) = true := by
    rw [Program.allowed, show (Encoding.decode (Program.opcodeAt m)).documented = true from
      hdocumented, Bool.true_or]
  obtain ⟨n, w, hs⟩ := exists_ran h.running h.nmiDue (step_ne_waits (not_mustWait h.awaiting))
    hallowed hjam
  obtain ⟨extra, b, hperform, hbus⟩ := (carriedOut_of_ran h.nmiDue hs).performed
  have hran := ran_of_step hs
  refine ⟨n, w, extra, b, hs, hperform, hbus, fun hnmi => ⟨hran.halted, ?_, ?_⟩⟩
  · rw [hran.sync]
    exact h.awaiting
  · rw [hbus]
    exact hnmi

/-- Going back from an interrupt takes the flags from the stack, and then the way back. -/
theorem Quiet.step_rti (h : w.Quiet) (hop : Program.opcodeAt w = 0x40) :
    ∃ k v, w.step = (.ran k, v) ∧
      v.cpu.pc = wordOf (w.bus.onStack (w.cpu.regs.sp + 3))
        (w.bus.onStack (w.cpu.regs.sp + 2)) ∧
      v.cpu.regs = { w.cpu.regs with
        sp := w.cpu.regs.sp + 3
        p := .pulled (w.bus.onStack (w.cpu.regs.sp + 1)) } := by
  have he : w.encoding = ⟨.rti, .implied, 6, true⟩ := encoding_of_opcode hop (by rfl)
  obtain ⟨k, v, extra, b, hs, hperform, -⟩ := h.step .returnFromInterrupt he rfl rfl nofun
  rw [Program.returnFromInterrupt_exec, Bus.onStack_congr w.located_onlyRead.ram, located_regs]
    at hperform
  have hcore := congrArg (·.2.1) hperform
  exact ⟨k, v, hs, congrArg Core.pc hcore.symm, congrArg Core.regs hcore.symm⟩

/-- Going back after a call takes the last byte of the call from the stack. -/
theorem Quiet.step_rts (h : w.Quiet) (hop : Program.opcodeAt w = 0x60) :
    ∃ k v, w.step = (.ran k, v) ∧
      v.cpu.pc = wordOf (w.bus.onStack (w.cpu.regs.sp + 2))
        (w.bus.onStack (w.cpu.regs.sp + 1)) + 1 ∧
      v.cpu.regs = { w.cpu.regs with sp := w.cpu.regs.sp + 2 } := by
  have he : w.encoding = ⟨.rts, .implied, 6, true⟩ := encoding_of_opcode hop (by rfl)
  obtain ⟨k, v, extra, b, hs, hperform, -⟩ := h.step .returnFromCall he rfl rfl nofun
  rw [Program.returnFromCall_exec, Bus.onStack_congr w.located_onlyRead.ram, located_regs]
    at hperform
  have hcore := congrArg (·.2.1) hperform
  exact ⟨k, v, hs, congrArg Core.pc hcore.symm, congrArg Core.regs hcore.symm⟩

/-! ### Interrupts -/

/-- From `m` to `w` an interrupt was entered, from which the way leads back to `back`. -/
structure Interrupted (m w : Machine κ) (vector back : UInt16) (byInstruction : Bool) : Prop where
  quiet : w.Quiet
  pc : w.cpu.pc = wordOf (m.bus.readCartridge (vector + 1)) (m.bus.readCartridge vector)
  regs : w.cpu.regs = { m.cpu.regs with
    sp := m.cpu.regs.sp - 3
    p := { m.cpu.regs.p with interruptDisable := true } }
  ram : w.bus.ram = (m.bus.stacked m.cpu.regs.sp back (m.cpu.regs.p.pushed byInstruction)).ram

/-- What is taken from the stack is what was put there, in the registers as well. -/
theorem Interrupted.returns {vector back : UInt16} {byInstruction : Bool}
    (h : Interrupted m w vector back byInstruction) (hreserved : m.cpu.regs.p.reserved = true)
    (hbrk : m.cpu.regs.p.brk = false) (hop : Program.opcodeAt w = 0x40) :
    ∃ k v, w.step = (.ran k, v) ∧ v.cpu.pc = back ∧ v.cpu.regs = m.cpu.regs := by
  obtain ⟨k, v, hs, hpc, hregs⟩ := h.quiet.step_rti hop
  obtain ⟨hhigh, hlow, hflags⟩ := m.bus.stacked_cells m.cpu.regs.sp back
    (m.cpu.regs.p.pushed byInstruction)
  have hone (sp : UInt8) : sp - 3 + 1 = sp - 2 := by grind
  have htwo (sp : UInt8) : sp - 3 + 2 = sp - 1 := by grind
  have hthree (sp : UInt8) : sp - 3 + 3 = sp := by grind
  refine ⟨k, v, hs, ?_, ?_⟩
  · rw [hpc, Bus.onStack_congr h.ram, h.regs]
    dsimp only
    rw [htwo, hthree, hhigh, hlow, wordOf_bytes]
  · rw [hregs, Bus.onStack_congr h.ram, h.regs]
    dsimp only
    rw [hone, hthree, hflags, Status.pulled_pushed _ _ hreserved hbrk]

/-- An interrupt from outside is entered between two instructions. -/
theorem Quiet.interrupted (h : m.Quiet) (vector : UInt16)
    (hlow : Region.ofAddress vector = .cartridge)
    (hhigh : Region.ofAddress (vector + 1) = .cartridge) :
    ∃ n w, finish m.cpu.pc ((interrupt vector).run m) = (.ran n, w) ∧
      Interrupted m w vector m.cpu.pc false := by
  obtain ⟨j, hj⟩ := (((interrupt vector).run_eq_exec m).resolve_left fun ⟨m', hw⟩ =>
    (interrupt vector).run_ne_wait (not_mustWait h.awaiting) m' hw).2
  rw [hj, interrupt, Program.bind_eq, Program.exec_bind, Program.enterInterrupt_exec hlow hhigh]
  exact ⟨_, _, rfl, ⟨h.running, h.awaiting, h.nmiPending⟩, rfl, rfl, rfl⟩

theorem interrupted_of_due (hh : m.cpu.halted = false) (ha : m.cpu.sync.awaiting = false)
    (hdue : m.nmiDue = true) :
    ∃ n w, m.step = (.ran n, w) ∧ Interrupted m w Cpu.nmiVector m.cpu.pc false := by
  have htake : m.takeNmi = { m with bus := { m.bus with video := m.bus.video.takeNmi.2 } } := by
    rw [takeNmi, if_pos hdue]
  have hquiet : m.takeNmi.Quiet := by
    rw [htake]
    exact ⟨hh, ha, rfl⟩
  obtain ⟨n, w, hfinish, hw⟩ := hquiet.interrupted Cpu.nmiVector rfl rfl
  rw [htake] at hfinish hw
  refine ⟨n, w, ?_, hw.quiet, hw.pc, hw.regs, hw.ram⟩
  rw [step_of_not_halted hh, program_of_due hdue, htake]
  exact hfinish

theorem Quiet.irq_interrupted (h : m.Quiet) (hi : m.cpu.regs.p.interruptDisable = false) :
    ∃ n w, m.irq = (.ran n, w) ∧ Interrupted m w Cpu.irqVector m.cpu.pc false := by
  rw [irq, if_neg (by simp [hi, h.running])]
  exact h.interrupted Cpu.irqVector rfl rfl

/-- The instruction that asks for an interrupt comes back two bytes further on. -/
theorem Quiet.brk_interrupted (h : m.Quiet) (hi : m.cpu.regs.p.interruptDisable = false)
    (hop : Program.opcodeAt m = 0x00) :
    ∃ n w, m.step = (.ran n, w) ∧ Interrupted m w Cpu.irqVector (m.cpu.pc + 2) true := by
  have he : m.encoding = ⟨.brk, .implied, 2, true⟩ := encoding_of_opcode hop (by rfl)
  obtain ⟨n, w, extra, b, hs, hperform, hbus, hquiet⟩ := h.step .interrupt he rfl rfl nofun
  have hcore := m.located_spec.1
  have hpc : m.located.1.pc + 1 = m.cpu.pc + 2 := by
    rw [hcore, he]
    show m.cpu.pc + 1 + 0 + 1 = _
    grind
  have hread : m.bus.OnlyRead (m.located.2.read m.located.1.pc).2 :=
    m.located_onlyRead.trans (.read _ _)
  rw [Program.interrupt_exec _ _ (by rw [located_regs]; exact hi), hpc, located_regs,
    hread.readCartridge, hread.readCartridge] at hperform
  have hcore' := congrArg (·.2.1) hperform
  obtain rfl := congrArg (·.2.2) hperform
  refine ⟨n, w, hs, hquiet (hread.nmiPending.trans h.nmiPending), congrArg Core.pc hcore'.symm,
    congrArg Core.regs hcore'.symm, ?_⟩
  rw [hbus]
  simp only [Bus.takeStall, Bus.stacked, hread.ram]

/-! ### Calls -/

/-- From `m` to `w` a subroutine was called. -/
structure Called (m w : Machine κ) : Prop where
  quiet : w.Quiet
  regs : w.cpu.regs = { m.cpu.regs with sp := m.cpu.regs.sp - 2 }
  ram : w.bus.ram = (m.bus.linked m.cpu.regs.sp (m.cpu.pc + 2)).ram
  /-- the call goes to its operand, unless that has just been overwritten -/
  target : Program.inStack (m.cpu.pc + 2) = false → ∀ a ∈ m.operandAt, w.cpu.pc.toNat = a

/-- The way back from a call is the address of its last byte. -/
theorem located_back (m : Machine κ) (he : m.encoding = ⟨.jsr, .absolute, 6, true⟩) :
    m.located.1.pc - 1 = m.cpu.pc + 2 := by
  rw [m.located_spec.1, he]
  show m.cpu.pc + 1 + 2 - 1 = _
  grind

theorem Quiet.called (h : m.Quiet) (hop : Program.opcodeAt m = 0x20) :
    ∃ n w, m.step = (.ran n, w) ∧ Called m w := by
  have he : m.encoding = ⟨.jsr, .absolute, 6, true⟩ := encoding_of_opcode hop (by rfl)
  obtain ⟨n, w, extra, b, hs, hperform, hbus, hquiet⟩ := h.step .call he rfl rfl nofun
  obtain ⟨-, -, -, haddress, -⟩ := m.located_spec
  have hback := m.located_back he
  have hread := m.located_onlyRead
  rw [Program.call_exec, hback, located_regs] at hperform
  have hcore' := congrArg (·.2.1) hperform
  obtain rfl := congrArg (·.2.2) hperform
  refine ⟨n, w, hs, hquiet (hread.nmiPending.trans h.nmiPending), congrArg Core.regs hcore'.symm,
    ?_, fun hstack a ha => ?_⟩
  · rw [hbus]
    simp only [Bus.takeStall, Bus.linked, hread.ram]
  · have hpc : Program.callTarget m.located.1 m.located.2 = w.cpu.pc := congrArg Core.pc hcore'
    rw [← hpc, Program.callTarget, hback, hstack]
    exact haddress a ha

theorem Called.returns (h : Called m w) (hop : Program.opcodeAt w = 0x60) :
    ∃ k v, w.step = (.ran k, v) ∧ v.cpu.pc = m.cpu.pc + 3 ∧ v.cpu.regs = m.cpu.regs := by
  obtain ⟨k, v, hs, hpc, hregs⟩ := h.quiet.step_rts hop
  obtain ⟨hhigh, hlow⟩ := m.bus.linked_cells m.cpu.regs.sp (m.cpu.pc + 2)
  have hone (sp : UInt8) : sp - 2 + 1 = sp - 1 := by grind
  have htwo (sp : UInt8) : sp - 2 + 2 = sp := by grind
  have hnext : m.cpu.pc + 2 + 1 = m.cpu.pc + 3 := by grind
  refine ⟨k, v, hs, ?_, ?_⟩
  · rw [hpc, Bus.onStack_congr h.ram, h.regs]
    dsimp only
    rw [hone, htwo, hhigh, hlow, wordOf_bytes, hnext]
  · rw [hregs, h.regs]
    dsimp only
    rw [htwo]

/-! ### All ways to go and come back -/

/-- The ways to go somewhere in order to come back. -/
inductive Entry where
  /-- the interrupt of the picture unit -/
  | nmi
  /-- an interrupt from outside -/
  | irq
  /-- the instruction that asks for one -/
  | brk
  /-- a call -/
  | jsr
  deriving DecidableEq, Repr

namespace Entry

/-- The machine is about to go there, and apart from that no interrupt is pending. -/
def Begins (m : Machine κ) : Entry → Prop
  | .nmi => m.nmiDue = true
  | .irq => m.cpu.regs.p.interruptDisable = false ∧ m.bus.video.regs.nmiPending = false
  | .brk => Program.opcodeAt m = 0x00 ∧ m.cpu.regs.p.interruptDisable = false ∧
    m.bus.video.regs.nmiPending = false
  | .jsr => Program.opcodeAt m = 0x20 ∧ m.bus.video.regs.nmiPending = false

def enter (m : Machine κ) : Entry → Progress × Machine κ
  | .irq => m.irq
  | _ => m.step

def back : Entry → UInt8
  | .jsr => 0x60
  | _ => 0x40

/-- Where the processor goes on, having left off at an address. -/
def resume (pc : UInt16) : Entry → UInt16
  | .nmi | .irq => pc
  | .brk => pc + 2
  | .jsr => pc + 3

def vector : Entry → UInt16
  | .nmi => Cpu.nmiVector
  | _ => Cpu.irqVector

/-- What going there has done. -/
structure Entered (e : Entry) (m w : Machine κ) : Prop where
  /-- an interrupt goes where its vector says, and lets no further one in -/
  interrupt : e ≠ .jsr →
    w.cpu.pc = wordOf (m.bus.peek (e.vector + 1)) (m.bus.peek e.vector) ∧
      w.cpu.regs.p.interruptDisable = true
  /-- the copy of the flags on the stack tells an instruction from an interrupt -/
  flags : e ≠ .jsr → Status.ofByte (w.bus.onStack (m.cpu.regs.sp - 2)) =
    { m.cpu.regs.p with reserved := true, brk := e == .brk }
  /-- a call goes to its operand, unless that has just been overwritten -/
  call : e = .jsr → Program.inStack (m.cpu.pc + 2) = false →
    ∀ a ∈ m.operandAt, w.cpu.pc.toNat = a

end Entry

theorem Interrupted.entered {e : Entry} {back : UInt16}
    (h : Interrupted m w e.vector back (e == .brk)) (he : e ≠ .jsr) : e.Entered m w := by
  refine ⟨fun _ => ⟨?_, ?_⟩, fun _ => ?_, fun hj => absurd hj he⟩
  · rw [h.pc]
    cases e <;> rfl
  · rw [h.regs]
  · rw [Bus.onStack_congr h.ram, (m.bus.stacked_cells ..).2.2, Status.pushed,
      Status.ofByte_toByte]

/-- **What goes somewhere comes back.**  If the opcode found there is the one that goes back, then
the processor goes on where it left off, with all of its registers as they were. -/
theorem entry_returns (e : Entry) (hh : m.cpu.halted = false)
    (ha : m.cpu.sync.awaiting = false) (hreserved : m.cpu.regs.p.reserved = true)
    (hbrk : m.cpu.regs.p.brk = false) (he : e.Begins m) :
    ∃ n w, e.enter m = (.ran n, w) ∧ e.Entered m w ∧
      (Program.opcodeAt w = e.back → ∃ k v, w.step = (.ran k, v) ∧
        v.cpu.pc = e.resume m.cpu.pc ∧ v.cpu.regs = m.cpu.regs) := by
  cases e with
  | nmi =>
    obtain ⟨n, w, hs, hw⟩ := interrupted_of_due hh ha he
    exact ⟨n, w, hs, hw.entered (e := .nmi) nofun, hw.returns hreserved hbrk⟩
  | irq =>
    obtain ⟨n, w, hs, hw⟩ := Quiet.irq_interrupted ⟨hh, ha, he.2⟩ he.1
    exact ⟨n, w, hs, hw.entered (e := .irq) nofun, hw.returns hreserved hbrk⟩
  | brk =>
    obtain ⟨hop, hi, hnmi⟩ := he
    obtain ⟨n, w, hs, hw⟩ := Quiet.brk_interrupted ⟨hh, ha, hnmi⟩ hi hop
    exact ⟨n, w, hs, hw.entered (e := .brk) nofun, hw.returns hreserved hbrk⟩
  | jsr =>
    obtain ⟨hop, hnmi⟩ := he
    obtain ⟨n, w, hs, hw⟩ := Quiet.called ⟨hh, ha, hnmi⟩ hop
    exact ⟨n, w, hs, ⟨nofun, nofun, fun _ => hw.target⟩, hw.returns⟩

/-- A machine whose stack is about to wrap around, with the given opcode, followed by an address in
page zero.  There a subroutine goes back at once; the interrupt routine, at the beginning of memory,
does so as well. -/
def visiting (opcode : UInt8) : Machine Board where
  cpu := {
    regs := {
      a := 1
      x := 2
      y := 3
      sp := 1
      p := { Status.initial with interruptDisable := false, carry := true } }
    pc := 0x10 }
  bus := { Bus.plug Board.blank with
    ram := memoryWith [(0x10, opcode), (0x11, 0x20), (0, 0x40), (0x20, 0x60)] }

theorem read_blank {address : UInt16} (h : 0x8000 ≤ address) :
    Cartridge.read Board.blank address = 0 := by
  have hram : Nrom.isRam address = false := by
    simp only [Nrom.isRam, Bool.and_eq_false_iff, decide_eq_false_iff_not]
    exact .inr (UInt16.not_lt.mpr h)
  show Nrom.read _ address = 0
  rw [Nrom.read, hram, if_neg Bool.false_ne_true, if_pos h]
  exact Vector.getElem_replicate ..

/-- An interrupt that an instruction asks for, and a call. -/
theorem visiting_returns :
    (∃ n w k v, (visiting 0x00).step = (.ran n, w) ∧ w.step = (.ran k, v) ∧
      v.cpu.pc = 0x12 ∧ v.cpu.regs = (visiting 0x00).cpu.regs) ∧
    (∃ n w k v, (visiting 0x20).step = (.ran n, w) ∧ w.step = (.ran k, v) ∧
      v.cpu.pc = 0x13 ∧ v.cpu.regs = (visiting 0x20).cpu.regs) := by
  have hplace (opcode : UInt8) {n : Nat} {w : Machine Board}
      (hs : (visiting opcode).step = (.ran n, w)) : (visiting opcode).step.2 = w :=
    congrArg (·.2) hs
  constructor
  · obtain ⟨n, w, hs, hentered, hreturn⟩ := entry_returns (m := visiting 0x00) .brk rfl rfl
      (by decide) (by decide) ⟨by decide +kernel, rfl, rfl⟩
    have hpc : w.cpu.pc = 0 := by
      rw [(hentered.interrupt nofun).1]
      show wordOf (Cartridge.read Board.blank 0xFFFF) (Cartridge.read Board.blank 0xFFFE) = 0
      rw [read_blank (by decide), read_blank (by decide)]
      rfl
    have hram : w.bus.ram[0] = 0x40 := by
      rw [← hplace 0x00 hs]
      decide +kernel
    have hop : Program.opcodeAt w = 0x40 := by
      rw [Program.opcodeAt, hpc, Bus.read_page_zero rfl]
      exact hram
    obtain ⟨k, v, hv, hpc, hregs⟩ := hreturn hop
    exact ⟨n, w, k, v, hs, hv, hpc, hregs⟩
  · obtain ⟨n, w, hs, -, hreturn⟩ := entry_returns (m := visiting 0x20) .jsr rfl rfl (by decide)
      (by decide) ⟨by decide +kernel, rfl⟩
    have hop : Program.opcodeAt w = 0x60 := by
      rw [← hplace 0x20 hs]
      decide +kernel
    obtain ⟨k, v, hv, hpc, hregs⟩ := hreturn hop
    exact ⟨n, w, k, v, hs, hv, hpc, hregs⟩

end Machine

end Famicom
