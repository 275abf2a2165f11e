import Famicom.Proofs.Machine.Cost

/-!
# What actions do

The families that work on an operand read it, write it or do both, and access nothing else where it
is in memory (`perform_trace`, `load_exec`, `modify_exec`).  Every action changes registers, and
beyond them the program counter at most, which it does only if it goes elsewhere
(`perform_keeping`).
-/

namespace Famicom

open Processor

variable {κ : Type} [Cartridge κ]

/-- The families that work on an operand. -/
def Processor.Action.meetsOperand : Action → Bool
  | .load .. | .store .. | .modify .. => true
  | _ => false

/-- The families that may go elsewhere, if the flags allow. -/
def Processor.Action.diverts (p : Status) : Action → Bool
  | .branch taken => taken p
  | .jump | .call | .returnFromCall | .returnFromInterrupt => true
  | .interrupt => !p.interruptDisable
  | _ => false

namespace Program

/-! ### The operand -/

/-- The operand that has been found, and the bus after it was read. -/
def operandOf (c : Core) (b : Bus κ) : UInt8 × Bus κ :=
  if c.operand.mode.addressesMemory then b.read c.operand.address else (c.operand.data, b)

section Acting

variable {c : Core} {b : Bus κ}

theorem readOperand_exec (c : Core) (b : Bus κ) :
    readOperand.exec c b = (some (operandOf c b).1, c, (operandOf c b).2) := by
  show (if c.operand.mode.addressesMemory then readByte c.operand.address
    else .done c.operand.data : Program UInt8).exec c b = _
  unfold operandOf
  split <;> rfl

theorem readOperand_trace (h : c.operand.mode.addressesMemory = true) :
    readOperand.trace c b = [.read .data c.operand.address] := by
  show (if c.operand.mode.addressesMemory then readByte c.operand.address
    else .done c.operand.data : Program UInt8).trace c b = _
  rw [if_pos h]
  rfl

theorem writeOperand_exec (h : c.operand.mode.addressesMemory = true) (byte : UInt8) :
    (writeOperand byte).exec c b = (some (), c, b.write c.operand.address byte) ∧
      (writeOperand byte).trace c b = [.write c.operand.address byte] := by
  obtain ⟨r, pc, ⟨mode, address, data, base, crossed⟩⟩ := c
  cases mode <;> first | exact ⟨rfl, rfl⟩ | cases h

theorem load_exec (pays : Bool) (f : Registers → UInt8 → Registers) :
    (perform (.load pays f)).exec c b =
      (some (if pays then pageCycle c.operand else 0),
        { c with regs := f c.regs (operandOf c b).1 }, (operandOf c b).2) := by
  show (readOperand.bind _).exec c b = _
  rw [exec_bind, readOperand_exec]
  rfl

/-- The byte that a change puts in the place of its operand. -/
def rewritten (byte : Registers → UInt8 → UInt8) (c : Core) (b : Bus κ) : UInt8 :=
  byte c.regs (operandOf c b).1

theorem modify_exec (h : c.operand.mode.addressesMemory = true)
    (byte : Registers → UInt8 → UInt8) (settle : Registers → UInt8 → UInt8 → Registers) :
    (perform (.modify byte settle)).exec c b =
      (some 0, { c with regs := settle c.regs (operandOf c b).1 (rewritten byte c b) },
        (operandOf c b).2.write c.operand.address (rewritten byte c b)) := by
  show (readOperand.bind _).exec c b = _
  rw [exec_bind, readOperand_exec]
  show ((writeOperand (rewritten byte c b)).bind _).exec c (operandOf c b).2 = _
  rw [exec_bind, (writeOperand_exec h _).1]
  rfl

theorem modify_trace (h : c.operand.mode.addressesMemory = true)
    (byte : Registers → UInt8 → UInt8) (settle : Registers → UInt8 → UInt8 → Registers) :
    (perform (.modify byte settle)).trace c b =
      [.read .data c.operand.address, .write c.operand.address (rewritten byte c b)] := by
  show (readOperand.bind _).trace c b = _
  rw [trace_bind, readOperand_exec, readOperand_trace h]
  show _ ++ ((writeOperand (rewritten byte c b)).bind _).trace c (operandOf c b).2 = _
  rw [trace_bind, (writeOperand_exec h _).1, (writeOperand_exec h _).2]
  rfl

end Acting

/-- What works on an operand in memory accesses that and nothing else. -/
theorem perform_trace {action : Action} {c : Core} (h : c.operand.mode.addressesMemory = true)
    (ha : action.meetsOperand = true) (b : Bus κ) :
    (perform action).trace c b ≠ [] ∧
      ∀ a ∈ (perform action).trace c b, a.address = c.operand.address := by
  cases action with
  | load pays f =>
    have htrace : (perform (.load pays f)).trace c b = [.read .data c.operand.address] := by
      show (readOperand.bind _).trace c b = _
      rw [trace_bind, readOperand_exec, readOperand_trace h]
      rfl
    rw [htrace]
    simp [Access.address]
  | store byte settle =>
    have htrace : (perform (.store byte settle)).trace c b =
        [.write c.operand.address (byte c.regs (highByte c.operand.base))] := by
      show ((writeOperand _).bind _).trace c b = _
      rw [trace_bind, (writeOperand_exec h _).1, (writeOperand_exec h _).2]
      rfl
    rw [htrace]
    simp [Access.address]
  | modify byte settle =>
    rw [modify_trace h]
    simp [Access.address]
  | _ => cases ha

/-! ### What is left alone -/

/-- What the changes of a program do not take away, a run of it does not take away. -/
theorem Obeys.exec_lasts {α : Type} {P : Core → Prop} {change : Core → Core → Prop}
    (hP : ∀ c c', change c c' → P c → P c') {p : Program α} {c : Core}
    (h : p.Obeys { change } (fun _ _ => True) c) (hc : P c) (b : Bus κ) : P (p.exec c b).2.1 := by
  induction p generalizing c b with
  | done a => exact hc
  | jam => exact hc
  | look next ih => exact ih c h hc b
  | change g next ih => exact ih h.2 (hP _ _ h.1 hc) b
  | note event next ih => exact ih h hc b
  | read purpose address next ih => exact ih _ ((h.resolve_left Bool.false_ne_true).2 _) hc _
  | write address byte next ih => exact ih (h.resolve_left Bool.false_ne_true).2 hc _

/-- What they leave alone, it leaves alone. -/
theorem Obeys.exec_keeps {α β : Type} {f : Core → β} {p : Program α} {c : Core}
    (h : p.Obeys { change := fun c c' => f c' = f c } (fun _ _ => True) c) (b : Bus κ) :
    f (p.exec c b).2.1 = f c :=
  h.exec_lasts (P := fun c' => f c' = f c) (fun _ _ hchange hc => hchange.trans hc) rfl b

section Keeping

variable {β : Type} {f : Core → β}

/-- Every change keeps something of what instructions work on. -/
abbrev Keeping {α : Type} (f : Core → β) (p : Program α) (c : Core) : Prop :=
  p.Obeys { change := fun c c' => f c' = f c } (fun _ _ => True) c

theorem Keeping.bind {α γ : Type} {p : Program α} {g : α → Program γ} {c : Core}
    (hp : p.Keeping f c) (hg : ∀ a c, (g a).Keeping f c) : (p.bind g).Keeping f c :=
  Obeys.bind hp fun a c _ => hg a c

theorem readOperand_keeping (c : Core) : readOperand.Keeping f c := by
  show Obeys _ _ (if c.operand.mode.addressesMemory then readByte c.operand.address
    else .done c.operand.data : Program UInt8) c
  split
  · exact .inr ⟨trivial, fun _ => trivial⟩
  · trivial

variable (hregs : ∀ (c : Core) (r : Registers), f { c with regs := r } = f c)
include hregs

theorem modifyRegs_keeping (g : Registers → Registers) (c : Core) : (modifyRegs g).Keeping f c :=
  ⟨hregs c _, trivial⟩

theorem push_keeping (byte : UInt8) (c : Core) : (push byte).Keeping f c :=
  .inr ⟨trivial, hregs c _, trivial⟩

theorem pop_keeping (c : Core) : pop.Keeping f c :=
  ⟨hregs c _, .inr ⟨trivial, fun _ => trivial⟩⟩

theorem writeOperand_keeping (byte : UInt8) (c : Core) : (writeOperand byte).Keeping f c := by
  obtain ⟨r, pc, ⟨mode, address, data, base, crossed⟩⟩ := c
  cases mode <;> first | exact .inr ⟨trivial, trivial⟩ | exact ⟨hregs _ _, trivial⟩

theorem pushWord_keeping (w : UInt16) (c : Core) : (pushWord w).Keeping f c :=
  (push_keeping hregs _ c).bind fun _ c => push_keeping hregs _ c

theorem popWord_keeping (c : Core) : popWord.Keeping f c :=
  (pop_keeping hregs c).bind fun _ c => (pop_keeping hregs c).bind fun _ _ => trivial

theorem call_keeping (hpc : ∀ (c : Core) (pc : UInt16), f { c with pc := pc } = f c) (c : Core) :
    call.Keeping f c := by
  refine Keeping.bind (p := core) trivial fun back c =>
    (pushWord_keeping hregs _ c).bind fun _ c => ?_
  split
  · exact Or.inr ⟨trivial, fun _ => ⟨hpc _ _, trivial⟩⟩
  · exact ⟨hpc _ _, trivial⟩

theorem enterInterrupt_keeping (hpc : ∀ (c : Core) (pc : UInt16), f { c with pc := pc } = f c)
    (vector : UInt16) (byInstruction : Bool) (c : Core) :
    (enterInterrupt vector byInstruction).Keeping f c := by
  refine Keeping.bind (p := core) trivial fun _ c => (pushWord_keeping hregs _ c).bind fun _ c => ?_
  refine (push_keeping hregs _ c).bind fun _ c => (modifyRegs_keeping hregs _ c).bind fun _ c => ?_
  exact .inr ⟨trivial, fun _ => .inr ⟨trivial, fun _ => ⟨hpc _ _, trivial⟩⟩⟩

/-- An action changes registers, and the program counter only if it goes elsewhere. -/
theorem perform_keeping (action : Action) (c : Core)
    (hpc : action.diverts c.regs.p = true →
      ∀ (c : Core) (pc : UInt16), f { c with pc := pc } = f c) : (perform action).Keeping f c := by
  have core_keeping (c : Core) : core.Keeping f c := trivial
  have ended {n : Nat} (_ : Unit) (c : Core) : (done n : Program Nat).Keeping f c := trivial
  cases action with
  | compute g => exact (modifyRegs_keeping hregs g c).bind ended
  | load pays g =>
    refine (readOperand_keeping c).bind fun _ c => ?_
    exact (modifyRegs_keeping hregs _ c).bind fun _ c => (core_keeping c).bind fun _ _ => trivial
  | store byte settle =>
    refine (core_keeping c).bind fun _ c => (writeOperand_keeping hregs _ c).bind fun _ c => ?_
    exact (modifyRegs_keeping hregs _ c).bind ended
  | modify byte settle =>
    refine (readOperand_keeping c).bind fun _ c => (core_keeping c).bind fun _ c => ?_
    refine (writeOperand_keeping hregs _ c).bind fun _ c => ?_
    exact (modifyRegs_keeping hregs _ c).bind ended
  | branch taken =>
    show Obeys _ _ (if taken c.regs.p then
        (goto c.operand.address).bind fun _ => .done (1 + pageCycle c.operand)
      else .done 0 : Program Nat) c
    split
    · rename_i htaken
      exact ⟨hpc htaken c _, trivial⟩
    · trivial
  | jump => exact ⟨hpc rfl c _, trivial⟩
  | call => exact (call_keeping hregs (hpc rfl) c).bind ended
  | returnFromCall => exact (popWord_keeping hregs c).bind fun _ c => ⟨hpc rfl c _, trivial⟩
  | returnFromInterrupt =>
    refine (pop_keeping hregs c).bind fun _ c => (modifyRegs_keeping hregs _ c).bind fun _ c => ?_
    exact (popWord_keeping hregs c).bind fun _ c => ⟨hpc rfl c _, trivial⟩
  | interrupt =>
    show Obeys _ _ (if c.regs.p.interruptDisable then .done 0
      else fetch.bind fun _ => (enterInterrupt Cpu.irqVector true).bind fun _ => .done 5 :
        Program Nat) c
    split
    · trivial
    · rename_i hclear
      have hkeep := hpc (by simpa [Action.diverts] using hclear)
      refine Keeping.bind (p := fetch) (.inr ⟨trivial, fun _ => ⟨hkeep _ _, trivial⟩⟩) fun _ c => ?_
      exact (enterInterrupt_keeping hregs hkeep _ _ c).bind ended
  | push byte => exact (core_keeping c).bind fun _ c => (push_keeping hregs _ c).bind ended
  | pull g => exact (pop_keeping hregs c).bind fun _ c => (modifyRegs_keeping hregs _ c).bind ended
  | jam => trivial

end Keeping

end Program

end Famicom
