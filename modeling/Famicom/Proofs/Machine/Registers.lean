import Famicom.Proofs.Machine.Instructions

/-!
# What becomes of the registers

Between its accesses an action puts the registers through a few functions: one of its own, one that
moves the stack pointer, one that puts a byte into the accumulator.  A property that all of these
keep (`Action.Respects`) is kept by the action (`perform_respecting`).  So an instruction leaves
alone what is not among the registers that its mnemonic may change (`value_of_not_mayChange`).
-/

namespace Famicom

open Processor

variable {κ : Type} [Cartridge κ]

/-! ### Properties of the registers -/

/-- A property of the registers that does not depend on where the stack is. -/
def Processor.AnyStack (I : Registers → Prop) : Prop := ∀ r sp, I r → I { r with sp }

/-- What an action does to the registers on its own, with the flags `p`, keeps a property of
them. -/
def Processor.Action.Respects (I : Registers → Prop) (p : Status) : Action → Prop
  | .compute f => ∀ r, I r → I (f r)
  | .load _ f => ∀ r m, I r → I (f r m)
  | .store _ settle => ∀ r, I r → I (settle r)
  | .modify _ settle => ∀ r m v, I r → I (settle r m v)
  | .branch _ | .jump | .jam => True
  | .call | .returnFromCall | .push _ => AnyStack I
  | .pull f => AnyStack I ∧ ∀ r m, I r → I (f r m)
  | .returnFromInterrupt => AnyStack I ∧ ∀ r b, I r → I { r with p := .pulled b }
  | .interrupt => p.interruptDisable = false →
    AnyStack I ∧ ∀ r, I r → I { r with p := { r.p with interruptDisable := true } }

/-- The families that write their operand, which may be the accumulator. -/
def Processor.Action.putsOperand : Action → Bool
  | .store .. | .modify .. => true
  | _ => false

namespace Program

abbrev Respecting {α : Type} (I : Registers → Prop) (p : Program α) (c : Core) : Prop :=
  p.Obeys { change := fun c c' => I c.regs → I c'.regs } (fun _ _ => True) c

variable {α γ : Type} {I : Registers → Prop}

theorem Respecting.bind {p : Program α} {g : α → Program γ} {c : Core} (hp : p.Respecting I c)
    (hg : ∀ a c, (g a).Respecting I c) : (p.bind g).Respecting I c :=
  Obeys.bind hp fun a c _ => hg a c

theorem Respecting.exec {p : Program α} {c : Core} (h : p.Respecting I c) (hc : I c.regs)
    (b : Bus κ) : I (p.exec c b).2.1.regs :=
  h.exec_lasts (P := fun c => I c.regs) (fun _ _ => id) hc b

theorem modifyRegs_respecting {f : Registers → Registers} (hf : ∀ r, I r → I (f r)) (c : Core) :
    (modifyRegs f).Respecting I c :=
  ⟨hf c.regs, trivial⟩

theorem goto_respecting (address : UInt16) (c : Core) : (goto address).Respecting I c :=
  ⟨id, trivial⟩

/-- Reading the operand changes nothing. -/
theorem readOperand_respecting (c : Core) :
    readOperand.Obeys { change := fun c c' => I c.regs → I c'.regs } (fun _ c' => c' = c) c := by
  show Obeys _ _ (if c.operand.mode.addressesMemory then readByte c.operand.address
    else .done c.operand.data : Program UInt8) c
  split
  · exact .inr ⟨trivial, fun _ => rfl⟩
  · rfl

theorem writeOperand_respecting {c : Core}
    (hA : c.operand.mode.addressesMemory = false → ∀ r v, I r → I { r with a := v })
    (byte : UInt8) : (writeOperand byte).Respecting I c := by
  obtain ⟨r, pc, ⟨mode, address, data, base, crossed⟩⟩ := c
  cases mode <;> first | exact .inr ⟨trivial, trivial⟩ | exact ⟨hA rfl _ _, trivial⟩

section Stack

variable (hI : AnyStack I)
include hI

theorem push_respecting (byte : UInt8) (c : Core) : (push byte).Respecting I c :=
  .inr ⟨trivial, hI _ _, trivial⟩

theorem pop_respecting (c : Core) : pop.Respecting I c :=
  ⟨hI _ _, .inr ⟨trivial, fun _ => trivial⟩⟩

theorem pushWord_respecting (w : UInt16) (c : Core) : (pushWord w).Respecting I c :=
  (push_respecting hI _ c).bind fun _ c => push_respecting hI _ c

theorem popWord_respecting (c : Core) : popWord.Respecting I c :=
  (pop_respecting hI c).bind fun _ c => (pop_respecting hI c).bind fun _ _ => trivial

theorem call_respecting (c : Core) : call.Respecting I c := by
  refine Respecting.bind (p := core) trivial fun back c =>
    (pushWord_respecting hI _ c).bind fun _ c => ?_
  split
  · exact Or.inr ⟨trivial, fun _ => goto_respecting _ c⟩
  · exact goto_respecting _ c

theorem enterInterrupt_respecting
    (hi : ∀ r, I r → I { r with p := { r.p with interruptDisable := true } }) (vector : UInt16)
    (byInstruction : Bool) (c : Core) : (enterInterrupt vector byInstruction).Respecting I c := by
  refine Respecting.bind (p := core) trivial fun _ c =>
    (pushWord_respecting hI _ c).bind fun _ c => ?_
  refine (push_respecting hI _ c).bind fun _ c => (modifyRegs_respecting hi c).bind fun _ c => ?_
  exact .inr ⟨trivial, fun _ => .inr ⟨trivial, fun _ => goto_respecting _ c⟩⟩

end Stack

/-- **An action keeps what it respects**, if the accumulator is no matter where that is its
operand. -/
theorem perform_respecting {action : Action} {c : Core} (h : action.Respects I c.regs.p)
    (hA : action.putsOperand = true → c.operand.mode.addressesMemory = false →
      ∀ r v, I r → I { r with a := v }) : (perform action).Respecting I c := by
  have ended {n : Nat} (_ : Unit) (c : Core) : (done n : Program Nat).Respecting I c := trivial
  cases action with
  | compute f => exact (modifyRegs_respecting h c).bind ended
  | load pays f =>
    refine Obeys.bind (readOperand_respecting c) fun m c _ => ?_
    exact (modifyRegs_respecting (fun r => h r m) c).bind fun _ _ => trivial
  | store byte settle =>
    refine Respecting.bind (p := writeOperand _) (writeOperand_respecting (hA rfl) _) fun _ c => ?_
    exact (modifyRegs_respecting h c).bind ended
  | modify byte settle =>
    refine Obeys.bind (readOperand_respecting c) fun m c' hc' => ?_
    subst hc'
    refine Respecting.bind (p := writeOperand _) (writeOperand_respecting (hA rfl) _) fun _ c => ?_
    exact (modifyRegs_respecting (fun r => h r m _) c).bind ended
  | branch taken =>
    show Obeys _ _ (if taken c.regs.p then
        (goto c.operand.address).bind fun _ => .done (1 + pageCycle c.operand)
      else .done 0 : Program Nat) c
    split
    · exact (goto_respecting _ c).bind ended
    · trivial
  | jump => exact (goto_respecting _ c).bind ended
  | call => exact (call_respecting h c).bind ended
  | returnFromCall =>
    exact (popWord_respecting h c).bind fun _ c => (goto_respecting _ c).bind ended
  | returnFromInterrupt =>
    refine (pop_respecting h.1 c).bind fun flags c =>
      (modifyRegs_respecting (fun r => h.2 r flags) c).bind fun _ c => ?_
    exact (popWord_respecting h.1 c).bind fun _ c => (goto_respecting _ c).bind ended
  | interrupt =>
    show Obeys _ _ (if c.regs.p.interruptDisable then .done 0
      else fetch.bind fun _ => (enterInterrupt Cpu.irqVector true).bind fun _ => .done 5 :
        Program Nat) c
    split
    · trivial
    · rename_i hclear
      obtain ⟨hstack, hi⟩ := h (by simpa using hclear)
      refine Respecting.bind (p := fetch) (.inr ⟨trivial, fun _ => ⟨id, trivial⟩⟩) fun _ c => ?_
      exact (enterInterrupt_respecting hstack hi _ _ c).bind ended
  | push byte => exact (push_respecting h _ c).bind ended
  | pull f =>
    exact (pop_respecting h.1 c).bind fun m c =>
      (modifyRegs_respecting (fun r => h.2 r m) c).bind ended
  | jam => trivial

end Program

/-! ### The byte registers -/

namespace Processor

inductive ByteRegister where
  | a | x | y | sp
  deriving DecidableEq, Repr

namespace ByteRegister

def value (r : Registers) : ByteRegister → UInt8
  | .a => r.a
  | .x => r.x
  | .y => r.y
  | .sp => r.sp

/-- The mnemonics that may change a register in any of their modes. -/
def changedBy : ByteRegister → List Mnemonic
  | .a => [.adc, .and, .eor, .ora, .sbc, .usbc, .lda, .pla, .txa, .tya, .lax, .las, .alr, .anc,
    .ane, .arr, .isc, .rla, .rra, .slo, .sre]
  | .x => [.ldx, .tax, .tsx, .inx, .dex, .lax, .las, .sbx]
  | .y => [.ldy, .tay, .iny, .dey]
  | .sp => [.pha, .php, .pla, .plp, .jsr, .rts, .rti, .txs, .las, .tas]

/-- Every other mnemonic leaves the register alone, so far as it does not enter an interrupt. -/
theorem respects_of_not_changedBy {register : ByteRegister} {mnemonic : Mnemonic}
    (h : mnemonic ∉ register.changedBy) {p : Status}
    (hbrk : register = .sp → mnemonic = .brk → p.interruptDisable = true) (mode : Mode)
    (v : UInt8) : (mnemonic.action mode).Respects (fun r => register.value r = v) p := by
  cases mnemonic with
  | brk =>
    intro hi
    cases register with
    | sp => exact absurd hi (by rw [hbrk rfl rfl]; decide)
    | _ => exact ⟨fun _ _ hr => hr, fun _ hr => hr⟩
  | _ =>
    cases register <;> first
      | exact absurd (by decide) h
      | exact trivial
      | exact fun _ hr => hr
      | exact fun _ _ hr => hr
      | exact fun _ _ _ hr => hr
      | exact ⟨fun _ _ hr => hr, fun _ _ hr => hr⟩

end ByteRegister

def shifts : List Mnemonic := [.asl, .lsr, .rol, .ror]

/-- What is written back is in memory, or a shifted accumulator. -/
theorem encoding_puts (opcode : UInt8) :
    let e := Encoding.decode opcode
    (e.mnemonic.action e.mode).putsOperand = true →
      e.mode.addressesMemory = true ∨ e.mnemonic ∈ shifts ∧ e.mode = .accumulator := by
  revert opcode
  decide +kernel

end Processor

namespace Machine

variable {m m' : Machine κ}

theorem step_regs (hh : m.cpu.halted = false) (hwait : m.step.1 ≠ .waits) :
    m.step.2.cpu.regs = (m.program.exec m.cpu.toCore m.takeNmi.bus).2.1.regs := by
  obtain ⟨j, hj⟩ := step_of_ne_waits hh hwait
  rw [hj]
  rcases m.program.exec m.cpu.toCore m.takeNmi.bus with ⟨_ | k, c, b⟩ <;> rfl

/-- The registers that the next step may change. -/
def MayChange (m : Machine κ) (register : ByteRegister) : Prop :=
  if m.nmiDue then register = .sp
  else
    m.encoding.mnemonic ∈ register.changedBy ∨
      register = .a ∧ m.encoding.mnemonic ∈ shifts ∧ m.encoding.mode = .accumulator ∨
      register = .sp ∧ m.encoding.mnemonic = .brk ∧ m.cpu.regs.p.interruptDisable = false

/-- An interrupt that is entered keeps what depends neither on the stack pointer nor on whether
further ones are disabled. -/
theorem interrupt_respecting {I : Registers → Prop} (hI : AnyStack I)
    (hi : ∀ r, I r → I { r with p := { r.p with interruptDisable := true } }) (vector : UInt16)
    (c : Core) : (interrupt vector).Respecting I c :=
  (Program.enterInterrupt_respecting hI hi vector false c).bind fun _ _ => trivial

theorem CarriedOut.value_eq (h : m.CarriedOut m') (hdue : m.nmiDue = false)
    {register : ByteRegister} (hr : ¬ m.MayChange register) :
    register.value m'.cpu.regs = register.value m.cpu.regs := by
  simp only [MayChange, hdue, Bool.false_eq_true, if_false, not_or] at hr
  obtain ⟨hmnemonic, hshift, hbrk⟩ := hr
  obtain ⟨extra, b, hperform, -⟩ := h.performed
  let I : Registers → Prop := fun r => register.value r = register.value m.cpu.regs
  have hrespects : m.action.Respects I m.located.1.regs.p := by
    rw [m.located_regs]
    exact ByteRegister.respects_of_not_changedBy hmnemonic
      (fun hsp he => by simpa [hsp, he] using hbrk) _ _
  have hA : m.action.putsOperand = true → m.located.1.operand.mode.addressesMemory = false →
      ∀ r v, I r → I { r with a := v } := by
    intro hputs hmode r v hI
    rw [m.located_spec.2.2.mode_eq] at hmode
    have hacc := (encoding_puts _ hputs).resolve_left (Bool.eq_false_iff.mp hmode)
    cases register with
    | a => exact absurd ⟨rfl, hacc⟩ hshift
    | _ => exact hI
  have hkeeps := (Program.perform_respecting hrespects hA).exec
    (show I m.located.1.regs by rw [m.located_regs]) m.located.2
  rwa [hperform] at hkeeps

/-- **A step changes no other register.** -/
theorem value_of_not_mayChange {n : Nat} (hs : m.step = (.ran n, m')) {register : ByteRegister}
    (h : ¬ m.MayChange register) : register.value m'.cpu.regs = register.value m.cpu.regs := by
  cases hdue : m.nmiDue with
  | false => exact (carriedOut_of_ran hdue hs).value_eq hdue h
  | true =>
    simp only [MayChange, hdue, if_true] at h
    have hregs := step_regs (ran_of_step hs).not_halted (by rw [hs]; nofun)
    rw [hs, program_of_due hdue] at hregs
    rw [hregs]
    refine (interrupt_respecting (I := fun r => register.value r = register.value m.cpu.regs)
      ?_ ?_ _ m.cpu.toCore).exec rfl _
    · cases register with
      | sp => exact absurd rfl h
      | _ => exact fun _ _ hr => hr
    · cases register <;> exact fun _ hr => hr

end Machine

end Famicom
