import Famicom.Proofs.Machine.Instructions

/-!
# Two instructions in one

Some undocumented instructions do what two documented ones do in turn (`Program.documented`).  A
change of a byte of memory followed by an instruction that reads it back is one change, which
settles the registers as both do (`modify_then_load`), because memory holds what has just been
written, on the stack's page and in the repetitions of memory as well.  So both leave the same
machine behind (`documented_alike`), and a step that carried one of these instructions out has done
what the documented ones do (`CarriedOut.documented`).
-/

namespace Famicom

open Processor

variable {κ : Type} [Cartridge κ]

/-! ### Memory -/

omit [Cartridge κ] in
theorem Exec.mustWait_memory {address : UInt16} (h : address < 0x2000) (m : Machine κ) :
    mustWait m address = false := by
  have hlow : ¬ 0x2000 ≤ address := UInt16.not_le.mpr h
  simp [mustWait, isRegister, hlow]

/-- The cartridge has nothing to say about memory. -/
theorem Machine.write_memory {address : UInt16} (h : address < 0x2000) (m : Machine κ)
    (byte : UInt8) : m.write address byte = { m with bus := m.bus.write address byte } := by
  have hlow : ¬ 0x4020 ≤ address := UInt16.not_le.mpr (UInt16.lt_trans h (by decide))
  rw [Machine.write, Bus.remark, if_neg hlow]

namespace Program

/-- An operand is at hand or in RAM. -/
def Near (o : Operand) : Prop := o.mode.addressesMemory = true → o.address < 0x2000

variable {m : Machine κ}

theorem run_readOperand (h : Near m.cpu.operand) :
    readOperand.run m = .ok (operandOf m.cpu.toCore m.bus).1 m := by
  show (if m.cpu.operand.mode.addressesMemory then readByte m.cpu.operand.address
    else .done m.cpu.operand.data : Program UInt8).run m = _
  unfold operandOf
  split
  · rename_i hmemory
    rw [readByte, run, Exec.read_of_not_mustWait (Exec.mustWait_memory (h hmemory) m),
      Bus.read_memory (h hmemory)]
    rfl
  · rfl

theorem run_writeOperand (hmemory : m.cpu.operand.mode.addressesMemory = true)
    (h : Near m.cpu.operand) (byte : UInt8) :
    (writeOperand byte).run m =
      .ok () { m with bus := m.bus.write m.cpu.operand.address byte } := by
  have hwrite : (writeOperand byte).run m = (writeByte m.cpu.operand.address byte).run m := by
    obtain ⟨⟨⟨r, pc, ⟨mode, address, data, base, crossed⟩⟩, cycles, total, sync, halted,
      undocumented⟩, b, journal⟩ := m
    cases mode <;> first | rfl | cases hmemory
  rw [hwrite, writeByte, run,
    Exec.write_of_not_mustWait (Exec.mustWait_memory (h hmemory) m),
    Machine.write_memory (h hmemory)]
  rfl

/-! ### One action after another -/

section Overwriting

variable (r : Registers) (old new v : UInt8)

theorem movedLeft_a : (r.movedLeft old new).a = r.a := rfl

theorem movedRight_a : (r.movedRight old new).a = r.a := rfl

-- of a move only the carry stays, where the accumulator changes after it

theorem movedLeft_setA : (r.movedLeft old new).setA v = (r.setCarry (bit old 7)).setA v := rfl

theorem movedRight_setA : (r.movedRight old new).setA v = (r.setCarry (bit old 0)).setA v := rfl

theorem movedRight_add : (r.movedRight old new).add v = (r.setCarry (bit old 0)).add v := rfl

end Overwriting

theorem operandOf_write {c : Core} (hmemory : c.operand.mode.addressesMemory = true)
    (h : Near c.operand) (b : Bus κ) (byte : UInt8) :
    operandOf c (b.write c.operand.address byte) = (byte, b.write c.operand.address byte) := by
  rw [operandOf, if_pos hmemory, Bus.read_write_memory (h hmemory)]

theorem run_load (h : Near m.cpu.operand) (pays : Bool) (f : Registers → UInt8 → Registers) :
    (perform (.load pays f)).run m =
      .ok (if pays then pageCycle m.cpu.operand else 0)
        (m.onCore fun c => { c with regs := f c.regs (operandOf m.cpu.toCore m.bus).1 }) := by
  show (readOperand.bind _).run m = _
  rw [run_bind, run_readOperand h]
  rfl

/-- The machine with its operand changed in memory, and the registers settled. -/
def changed (m : Machine κ) (byte : Registers → UInt8 → UInt8)
    (settle : Registers → UInt8 → UInt8 → Registers) : Machine κ :=
  let old := (operandOf m.cpu.toCore m.bus).1
  let new := byte m.cpu.regs old
  { m with
    cpu := { m.cpu with regs := settle m.cpu.regs old new }
    bus := m.bus.write m.cpu.operand.address new }

theorem run_modify (hmemory : m.cpu.operand.mode.addressesMemory = true)
    (h : Near m.cpu.operand) (byte : Registers → UInt8 → UInt8)
    (settle : Registers → UInt8 → UInt8 → Registers) :
    (perform (.modify byte settle)).run m = .ok 0 (changed m byte settle) := by
  show (readOperand.bind _).run m = _
  rw [run_bind, run_readOperand h]
  show ((writeOperand _).bind _).run m = _
  rw [run_bind, run_writeOperand hmemory h]
  rfl

/-- Both programs come to their end, and the second leaves what the first leaves, apart from what is
known of the operand. -/
def Alike (m : Machine κ) (p q : Program Nat) : Prop :=
  ∃ n k w operand, p.run m = .ok n w ∧ q.run m = .ok k (w.onCore fun c => { c with operand })

def inTurn (first second : Mnemonic) (mode : Mode) : Program Nat := do
  let _ ← perform (first.action mode)
  perform (second.action mode)

section InTurn

variable {mnemonic first second : Mnemonic} {mode : Mode} {f g : Registers → UInt8 → Registers}
  {pays pays' : Bool}

/-- A change whose result is read back is one change. -/
theorem modify_then_load {byte : Registers → UInt8 → UInt8}
    {settle : Registers → UInt8 → UInt8 → Registers}
    (hfirst : first.action mode = .modify byte settle) (hsecond : second.action mode = .load pays f)
    (hboth : mnemonic.action mode = .modify byte fun r old new => f (settle r old new) new)
    (hmemory : m.cpu.operand.mode.addressesMemory = true) (h : Near m.cpu.operand) :
    Alike m (perform (mnemonic.action mode)) (inTurn first second mode) := by
  let w := changed m byte settle
  have hback : (operandOf w.cpu.toCore w.bus).1 =
      byte m.cpu.regs (operandOf m.cpu.toCore m.bus).1 :=
    congrArg (·.1) (operandOf_write (c := w.cpu.toCore) hmemory h m.bus _)
  rw [hboth, inTurn, hfirst, hsecond, bind_eq]
  refine ⟨0, if pays then pageCycle m.cpu.operand else 0, _, m.cpu.operand,
    run_modify hmemory h byte _, ?_⟩
  rw [run_bind, run_modify hmemory h]
  show (perform (.load pays f)).run w = _
  rw [run_load (m := w) h, hback]
  rfl

/-- Of two reads of one operand the second finds what the first has found. -/
theorem load_then_load (hfirst : first.action mode = .load pays f)
    (hsecond : second.action mode = .load pays' g)
    (hboth : mnemonic.action mode = .load pays fun r byte => g (f r byte) byte)
    (h : Near m.cpu.operand) :
    Alike m (perform (mnemonic.action mode)) (inTurn first second mode) := by
  let w := m.onCore fun c => { c with regs := f c.regs (operandOf m.cpu.toCore m.bus).1 }
  rw [hboth, inTurn, hfirst, hsecond, bind_eq]
  refine ⟨_, if pays' then pageCycle m.cpu.operand else 0, _, m.cpu.operand, run_load h pays _, ?_⟩
  rw [run_bind, run_load h]
  exact run_load (m := w) h pays' g

end InTurn

/-! ### The instructions of which another is made -/

/-- The documented instructions that do together what an undocumented one does. -/
def documented (mode : Mode) : Mnemonic → Option (Program Nat)
  | .slo => some (inTurn .asl .ora mode)
  | .rla => some (inTurn .rol .and mode)
  | .sre => some (inTurn .lsr .eor mode)
  | .rra => some (inTurn .ror .adc mode)
  | .dcp => some (inTurn .dec .cmp mode)
  | .isc => some (inTurn .inc .sbc mode)
  | .lax => if mode = .immediate then none else some (inTurn .lda .ldx mode)
  | .alr => some do
    let _ ← perform (Mnemonic.and.action mode)
    -- what is moved down is the accumulator
    resolve .accumulator
    perform (Mnemonic.lsr.action .accumulator)
  | .usbc => some (perform (Mnemonic.sbc.action mode))
  | _ => none

def changing : List Mnemonic := [.slo, .rla, .sre, .rra, .dcp, .isc]

theorem addressesMemory_of_changing (opcode : UInt8) :
    let e := Encoding.decode opcode
    e.mnemonic ∈ changing → e.mode.addressesMemory = true := by
  revert opcode
  decide +kernel

theorem alr_alike (h : Near m.cpu.operand) (mode : Mode) :
    ∀ p ∈ documented mode .alr, Alike m (perform (Mnemonic.alr.action mode)) p := by
  rintro _ ⟨⟩
  refine ⟨_, 0, _, { m.cpu.operand with
    mode := .accumulator
    data := m.cpu.regs.a &&& (operandOf m.cpu.toCore m.bus).1
    pageCrossed := false }, run_load h false _, ?_⟩
  show ((perform (.load true _)).bind _).run m = _
  rw [run_bind, run_load h]
  rfl

theorem usbc_alike (h : Near m.cpu.operand) (mode : Mode) :
    Alike m (perform (Mnemonic.usbc.action mode)) (perform (Mnemonic.sbc.action mode)) :=
  ⟨_, _, _, m.cpu.operand, run_load h false _, run_load h true _⟩

theorem alike_of_documented {mnemonic : Mnemonic} {mode : Mode} (h : Near m.cpu.operand)
    (hmemory : mnemonic ∈ changing → m.cpu.operand.mode.addressesMemory = true) :
    ∀ p ∈ documented mode mnemonic, Alike m (perform (mnemonic.action mode)) p := by
  intro p hp
  cases mnemonic with
  | slo | rla =>
    obtain rfl := Option.some.inj hp
    refine modify_then_load rfl rfl ?_ (hmemory (by decide)) h
    simp only [Mnemonic.action, movedLeft_setA, movedLeft_a]
  | sre =>
    obtain rfl := Option.some.inj hp
    refine modify_then_load rfl rfl ?_ (hmemory (by decide)) h
    simp only [Mnemonic.action, movedRight_setA, movedRight_a]
  | rra =>
    obtain rfl := Option.some.inj hp
    refine modify_then_load rfl rfl ?_ (hmemory (by decide)) h
    simp only [Mnemonic.action, movedRight_add]
  | dcp | isc =>
    obtain rfl := Option.some.inj hp
    exact modify_then_load rfl rfl rfl (hmemory (by decide)) h
  | lax =>
    obtain ⟨himmediate, rfl⟩ : mode ≠ .immediate ∧ inTurn .lda .ldx mode = p := by
      simpa [documented] using hp
    refine load_then_load rfl rfl ?_ h
    simp only [Mnemonic.action, if_neg himmediate]
    rfl
  | alr => exact alr_alike h mode p hp
  | usbc =>
    obtain rfl := Option.some.inj hp
    exact usbc_alike h mode
  | _ => cases hp

/-- **An undocumented instruction does what documented ones do in turn,** with its operand anywhere
in memory. -/
theorem documented_alike (opcode : UInt8)
    (hmode : m.cpu.operand.mode = (Encoding.decode opcode).mode) (h : Near m.cpu.operand) :
    let e := Encoding.decode opcode
    ∀ p ∈ documented e.mode e.mnemonic, Alike m (perform (e.mnemonic.action e.mode)) p :=
  alike_of_documented h fun hm => (congrArg _ hmode).trans (addressesMemory_of_changing opcode hm)

/-- A processor whose operand lies on the stack's page, and is named by a repetition of it. -/
def mirrored : Machine Board where
  cpu := {
    regs := { a := 0x50 }
    operand := { mode := .absolute, address := 0x0901 } }
  bus := { Bus.plug Board.blank with ram := Machine.memoryWith [(0x101, 0x5F)] }

theorem mirrored_alike :
    Alike mirrored (perform (Mnemonic.rra.action .absolute)) (inTurn .ror .adc .absolute) :=
  documented_alike 0x6F rfl (fun _ => by decide) _ rfl

theorem Alike.exec {p q : Program Nat} (h : Alike m p q) :
    ∃ n k c b operand, p.exec m.cpu.toCore m.bus = (some n, c, b) ∧
      q.exec m.cpu.toCore m.bus = (some k, { c with operand }, b) := by
  have exec_of_run {p : Program Nat} {n : Nat} {w : Machine κ} (hp : p.run m = .ok n w) :
      p.exec m.cpu.toCore m.bus = (some n, w.cpu.toCore, w.bus) := by
    rcases p.run_eq_exec m with ⟨w', hw⟩ | ⟨-, j, hj⟩
    · cases hp.symm.trans hw
    · rcases hexec : p.exec m.cpu.toCore m.bus with ⟨_ | n', c, b⟩ <;> rw [hexec] at hj
      · cases hp.symm.trans hj
      · cases hp.symm.trans hj
        rfl
  obtain ⟨n, k, w, operand, hp, hq⟩ := h
  exact ⟨n, k, w.cpu.toCore, w.bus, operand, exec_of_run hp, exec_of_run hq⟩

end Program

/-- A step that carried an undocumented instruction out has done what the documented ones do with
the operand that it has located. -/
theorem Machine.CarriedOut.documented {m m' : Machine κ} (h : m.CarriedOut m')
    (hmemory : ∀ a ∈ m.operandAt, a < 0x2000) :
    ∀ p ∈ Program.documented m.encoding.mode m.encoding.mnemonic,
      ∃ k c b, p.exec m.located.1 m.located.2 = (some k, c, b) ∧
        m'.cpu.regs = c.regs ∧ m'.cpu.pc = c.pc ∧ m'.bus = b.takeStall.2 := by
  intro p hp
  obtain ⟨-, -, hmode, haddress, -⟩ := m.located_spec
  have hnear : Program.Near m.located.1.operand := fun hmem => by
    obtain ⟨a, ha⟩ := addressesMemory_iff.mp (hmode ▸ hmem)
    rw [UInt16.lt_iff_toNat_lt, haddress a ha]
    exact hmemory a ha
  -- nothing has to wait on the machine with the instruction's core and bus
  let w : Machine κ := { cpu := { toCore := m.located.1 }, bus := m.located.2 }
  obtain ⟨n, k, c, b, operand, hboth, hturn⟩ := Program.Alike.exec
    (Program.alike_of_documented (m := w) hnear (fun hm => (congrArg _ hmode).trans
      (Program.addressesMemory_of_changing (Program.opcodeAt m) hm)) p hp)
  obtain ⟨extra, b', hperform, hbus⟩ := h.performed
  cases hboth.symm.trans hperform
  exact ⟨k, _, _, hturn, rfl, rfl, hbus⟩

end Famicom
