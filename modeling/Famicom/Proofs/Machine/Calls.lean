import Famicom.Proofs.Machine.Returns

/-!
# Calls that overwrite themselves

A call takes the upper byte of its target from its last byte only when the way back is on the stack
already.  That is how it is carried out where the last byte lies on the stack's page; elsewhere the
byte is taken before.  The difference shows where the last byte lies in a repetition of the stack's
page, because memory is repeated and the stack with it (`linked_read`).  So a call goes where it is
to go exactly if it is not `Stale` (`step_call_iff`).
-/

namespace Famicom

open Processor

variable {κ : Type} [Cartridge κ]

/-! ### The stack's page and its repetitions -/

/-- The upper bytes of the addresses that reach the stack's page, the first being its own. -/
def stackPages : List UInt8 := [0x01, 0x09, 0x11, 0x19]

/-- The addresses at which bytes are kept, in memory or in the cartridge. -/
def KeepsBytes (address : UInt16) : Prop := address < 0x2000 ∨ 0x4020 ≤ address

/-- An address reaches a cell of the stack exactly if it is on one of these pages. -/
theorem cell_eq_stackCell {address : UInt16} (h : address < 0x2000) (sp : UInt8) :
    address.toNat % 0x800 = (stackCell sp).val ↔
      highByte address ∈ stackPages ∧ lowByte address = sp := by
  have hlow := toNat_lowByte address
  have hhigh := toNat_highByte address
  have hlt : address.toNat < 8192 := UInt16.lt_iff_toNat_lt.mp h
  have hsp : sp.toNat < 256 := sp.toNat_lt
  have hcell : (stackCell sp).val = 256 + sp.toNat := rfl
  simp only [stackPages, List.mem_cons, List.not_mem_nil, or_false, ← UInt8.toNat_inj, hlow, hhigh,
    hcell, UInt8.reduceToNat]
  omega

theorem not_stackPages {address : UInt16} (h : 0x4020 ≤ address) :
    highByte address ∉ stackPages := by
  have hhigh := toNat_highByte address
  have hle : 16416 ≤ address.toNat := UInt16.le_iff_toNat_le.mp h
  simp only [stackPages, List.mem_cons, List.not_mem_nil, or_false, ← UInt8.toNat_inj, hhigh,
    UInt8.reduceToNat]
  omega

namespace Bus

/-- Memory answers with the byte of its cell, memory being repeated. -/
theorem read_of_memory {address : UInt16} (h : address < 0x2000) :
    ∃ cell : Fin 0x800, cell.val = address.toNat % 0x800 ∧
      ∀ b : Bus κ, (b.read address).1 = b.ram.get cell := by
  refine ⟨⟨address.toNat % 0x800, Nat.mod_lt _ (by decide)⟩, rfl, fun b => ?_⟩
  simp only [read, Region.ofAddress, h, if_true]
  rfl

theorem read_of_cartridge {address : UInt16} (h : 0x4020 ≤ address) (b : Bus κ) :
    b.read address = (b.readCartridge address, b) := by
  have hle : 16416 ≤ address.toNat := UInt16.le_iff_toNat_le.mp h
  have hmem : ¬ address < 0x2000 := fun h => by
    have : address.toNat < 8192 := UInt16.lt_iff_toNat_lt.mp h
    omega
  have hreg : ¬ address < 0x4000 := fun h => by
    have : address.toNat < 16384 := UInt16.lt_iff_toNat_lt.mp h
    omega
  rw [read, Region.ofAddress, if_neg hmem, if_neg hreg, if_pos h]

/-- What is read where bytes are kept is in memory and in the cartridge. -/
theorem read_kept_congr {address : UInt16} (h : KeepsBytes address) {b b' : Bus κ}
    (hram : b'.ram = b.ram) (hcartridge : b'.readCartridge address = b.readCartridge address) :
    (b'.read address).1 = (b.read address).1 := by
  rcases h with h | h
  · obtain ⟨cell, -, hread⟩ := read_of_memory (κ := κ) h
    rw [hread, hread, hram]
  · rw [read_of_cartridge h, read_of_cartridge h, hcartridge]

theorem OnlyRead.read_kept {b b' : Bus κ} (hb : b.OnlyRead b') {address : UInt16}
    (h : KeepsBytes address) : (b'.read address).1 = (b.read address).1 :=
  read_kept_congr h hb.ram (hb.readCartridge address)

/-- What the way back, put on the stack, makes of the bytes elsewhere. -/
theorem linked_read {address : UInt16} (h : KeepsBytes address) (b : Bus κ) (sp : UInt8)
    (back : UInt16) :
    ((b.linked sp back).read address).1 =
      if highByte address ∈ stackPages ∧ lowByte address = sp - 1 then lowByte back
      else if highByte address ∈ stackPages ∧ lowByte address = sp then highByte back
      else (b.read address).1 := by
  rcases h with h | h
  · obtain ⟨cell, hcell, hread⟩ := read_of_memory (κ := κ) h
    have hstack (sp : UInt8) : (stackCell sp).val = cell.val ↔
        highByte address ∈ stackPages ∧ lowByte address = sp := by
      rw [hcell]
      exact eq_comm.trans (cell_eq_stackCell h sp)
    rw [hread, hread]
    refine (Vector.getElem_set (stackCell (sp - 1)).isLt cell.isLt).trans ?_
    rw [Vector.getElem_set]
    simp only [hstack]
    rfl
  · rw [read_of_cartridge h, read_of_cartridge h, if_neg, if_neg]
    · rfl
    · exact fun hp => not_stackPages h hp.1
    · exact fun hp => not_stackPages h hp.1

end Bus

/-! ### Calls -/

/-- Where bytes are kept there is no register, and none right before. -/
theorem KeepsBytes.not_isRegister {address : UInt16} (h : KeepsBytes address) :
    isRegister address = false := by
  rcases h with h | h <;> simp [isRegister] <;> grind

theorem KeepsBytes.not_isRegister_before {pc : UInt16} (h : KeepsBytes (pc + 1)) :
    isRegister pc = false := by
  rcases h with h | h <;> simp [isRegister] <;> grind

namespace Program

variable {undocumented : Bool} {c : Core}

theorem execute_call (undocumented : Bool) :
    execute undocumented 0x20 = .note (fun c => .executing c 0x20)
      ((resolve .absolute).bind fun _ => (perform .call).bind fun extra => .done (6 + extra)) := by
  rfl

/-- A call whose bytes are not in registers keeps away from them. -/
theorem execute_call_aside (hlow : isRegister c.pc = false)
    (hhigh : isRegister (c.pc + 1) = false) : (execute undocumented 0x20).Aside c := by
  have hresolve : (resolve .absolute).Aside c :=
    ⟨trivial, .inr ⟨hlow, fun _ => ⟨trivial, .inr ⟨hhigh, fun _ => ⟨trivial, trivial, trivial⟩⟩⟩⟩⟩
  have hperform (c : Core) : (perform .call).Aside c := (call_aside c).bind fun _ _ _ => trivial
  rw [execute_call]
  exact hresolve.bind fun _ c _ => (hperform c).bind fun _ _ _ => trivial

end Program

namespace Machine

variable {m m' : Machine κ}

theorem step_call_ne_waits (hop : Program.opcodeAt m = 0x20) (hlow : KeepsBytes (m.cpu.pc + 1))
    (hhigh : KeepsBytes (m.cpu.pc + 2)) : m.step.1 ≠ .waits := by
  have htwo : m.cpu.pc + 1 + 1 = m.cpu.pc + 2 := by grind
  refine step_ne_waits_of_aside (by simp [Exec.mustWait, hlow.not_isRegister_before]) ?_
  rw [hop]
  exact Program.execute_call_aside hlow.not_isRegister (htwo ▸ hhigh.not_isRegister)

/-- From `m` to `m'` a call was carried out, the last two bytes of which are kept. -/
structure CalledFrom (m m' : Machine κ) : Prop where
  /-- the way back has been put on the stack, and nothing else been written -/
  linked : ∃ b, m.bus.OnlyRead b ∧ m'.bus = (b.linked m.cpu.regs.sp (m.cpu.pc + 2)).takeStall.2
  low : lowByte m'.cpu.pc = (m.bus.read (m.cpu.pc + 1)).1
  /-- the upper byte is taken after that only on the stack's own page -/
  high : highByte m'.cpu.pc = if Program.inStack (m.cpu.pc + 2) then (m'.bus.read (m.cpu.pc + 2)).1
    else (m.bus.read (m.cpu.pc + 2)).1

theorem calledFrom_of_ran {n : Nat} (hdue : m.nmiDue = false) (hs : m.step = (.ran n, m'))
    (hop : Program.opcodeAt m = 0x20) (hlow : KeepsBytes (m.cpu.pc + 1))
    (hhigh : KeepsBytes (m.cpu.pc + 2)) : m.CalledFrom m' := by
  have he : m.encoding = ⟨.jsr, .absolute, 6, true⟩ := encoding_of_opcode hop (by rfl)
  obtain ⟨extra, b, hperform, hbus⟩ := (carriedOut_of_ran hdue hs).performed
  obtain ⟨-, -, -, haddress, -⟩ := m.located_spec
  have hback := m.located_back he
  have hfetched := Bus.OnlyRead.read m.bus m.cpu.pc
  have hoperand : m.located.1.operand.address =
      wordOf (m.bus.read (m.cpu.pc + 2)).1 (m.bus.read (m.cpu.pc + 1)).1 := by
    have hat : m.operandAt = some ((m.bus.read m.cpu.pc).2.wordAt (m.cpu.pc + 1)
        (m.cpu.pc + 2)).toNat := by
      rw [operandAt, he]
      rfl
    rw [UInt16.toNat_inj.mp (haddress _ hat), Bus.wordAt, hfetched.read_kept hlow,
      (hfetched.trans (.read _ _)).read_kept hhigh]
  have hread := m.located_onlyRead
  rw [show m.action = .call by rw [action, he]; rfl, Program.call_exec, hback, located_regs]
    at hperform
  have hpc : Program.callTarget m.located.1 m.located.2 = m'.cpu.pc :=
    congrArg (·.2.1.pc) hperform
  obtain rfl := congrArg (·.2.2) hperform
  have hafter : (m'.bus.read (m.cpu.pc + 2)).1 =
      ((m.located.2.linked m.cpu.regs.sp (m.cpu.pc + 2)).read (m.cpu.pc + 2)).1 := by
    rw [hbus]
    exact Bus.read_kept_congr hhigh rfl rfl
  rw [Program.callTarget, hback, located_regs, hoperand, ← hafter] at hpc
  refine ⟨⟨m.located.2, hread, hbus⟩, ?_, ?_⟩
  · rw [← hpc]
    split <;> simp
  · rw [← hpc]
    split <;> simp

/-- The call at the program counter takes the upper byte of its target from a repetition of the
stack's page, and only then puts another byte there, which is one of the way back. -/
def Stale (m : Machine κ) : Prop :=
  let last := m.cpu.pc + 2
  highByte last ∈ stackPages ∧ Program.inStack last = false ∧
    (lowByte last = m.cpu.regs.sp ∧ (m.bus.read last).1 ≠ highByte last ∨
      lowByte last = m.cpu.regs.sp - 1 ∧ (m.bus.read last).1 ≠ lowByte last)

/-- **Where a call goes.**  It leaves the way back on the stack and goes to its operand, the upper
byte of which is as it reads after that, except in a call that is stale. -/
theorem step_call_iff (hh : m.cpu.halted = false) (hdue : m.nmiDue = false)
    (hop : Program.opcodeAt m = 0x20) (hlow : KeepsBytes (m.cpu.pc + 1))
    (hhigh : KeepsBytes (m.cpu.pc + 2)) :
    ∃ n m', m.step = (.ran n, m') ∧
      m'.bus.onStack m.cpu.regs.sp = highByte (m.cpu.pc + 2) ∧
      m'.bus.onStack (m.cpu.regs.sp - 1) = lowByte (m.cpu.pc + 2) ∧
      lowByte m'.cpu.pc = (m.bus.read (m.cpu.pc + 1)).1 ∧
      (highByte m'.cpu.pc = (m'.bus.read (m.cpu.pc + 2)).1 ↔ ¬ m.Stale) := by
  have he : m.encoding = ⟨.jsr, .absolute, 6, true⟩ := encoding_of_opcode hop (by rfl)
  have hallowed : Program.allowed m.cpu.undocumented (Program.opcodeAt m) = true := by
    rw [hop]
    rfl
  obtain ⟨n, m', hs⟩ := exists_ran hh hdue (step_call_ne_waits hop hlow hhigh) hallowed
    (by simp [action, he, Mnemonic.action])
  obtain ⟨⟨b, hb, hbus⟩, hlow', hhigh'⟩ := calledFrom_of_ran hdue hs hop hlow hhigh
  obtain ⟨hsp, hsp'⟩ := b.linked_cells m.cpu.regs.sp (m.cpu.pc + 2)
  refine ⟨n, m', hs, ?_, ?_, hlow', ?_⟩
  · rw [hbus]
    exact hsp
  · rw [hbus]
    exact hsp'
  have hafter : (m'.bus.read (m.cpu.pc + 2)).1 =
      ((b.linked m.cpu.regs.sp (m.cpu.pc + 2)).read (m.cpu.pc + 2)).1 := by
    rw [hbus]
    exact Bus.read_kept_congr hhigh rfl rfl
  have hone : m.cpu.regs.sp - 1 ≠ m.cpu.regs.sp := by grind
  rw [hhigh', hafter, Bus.linked_read hhigh, hb.read_kept hhigh]
  simp only [Stale]
  cases Program.inStack (m.cpu.pc + 2) with
  | true => simp
  | false =>
    by_cases hpage : highByte (m.cpu.pc + 2) ∈ stackPages
    · by_cases hlast : lowByte (m.cpu.pc + 2) = m.cpu.regs.sp - 1
      · simp [hpage, hlast, hone]
      · simp [hpage, hlast]
    · simp [hpage]

/-- A machine about to call a subroutine, with the bytes of the call in the cells of memory from
`0xFF` to `0x101` and the stack pointer at the last of these. -/
def callingAt (pc : UInt16) : Machine Board where
  cpu := { regs := { sp := 0x01 }, pc }
  bus := { Bus.plug Board.blank with
    ram := memoryWith [(0xFF, 0x20), (0x100, 0x34), (0x101, 0x12)] }

/-- On the stack's own page the call goes where its overwritten bytes say. -/
theorem callingAt_stack_target :
    (callingAt 0x00FF).step.2.cpu.pc = 0x0134 ∧
      ((callingAt 0x00FF).step.2.bus.read 0x0101).1 = 0x01 := by
  have hkeeps : KeepsBytes 0x0100 ∧ KeepsBytes 0x0101 := ⟨.inl (by decide), .inl (by decide)⟩
  have hfresh : ¬ (callingAt 0x00FF).Stale := fun h => absurd h.2.1 (by decide)
  obtain ⟨n, m', hs, hhigh, -, hlow, hiff⟩ := step_call_iff (m := callingAt 0x00FF) rfl rfl
    (by decide +kernel) hkeeps.1 hkeeps.2
  have hread : (m'.bus.read 0x0101).1 = 0x01 := by
    have hlt : (0x0101 : UInt16) < 0x2000 := by decide
    obtain ⟨cell, hcell, hmemory⟩ := Bus.read_of_memory (κ := Board) hlt
    rw [hmemory, show cell = stackCell 0x01 from Fin.ext hcell]
    exact hhigh
  have hpc : m'.cpu.pc = 0x0134 := by
    rw [← wordOf_bytes m'.cpu.pc, hlow, hiff.mpr hfresh]
    show wordOf (m'.bus.read 0x0101).1 _ = _
    rw [hread]
    decide +kernel
  rw [hs]
  exact ⟨hpc, hread⟩

/-- In a repetition of that page it goes where its bytes said before. -/
theorem callingAt_repeated_target :
    Program.opcodeAt (callingAt 0x08FF) = 0x20 ∧ (callingAt 0x08FF).step.1 = .ran 6 ∧
      (callingAt 0x08FF).step.2.cpu.pc = 0x1234 ∧
      ((callingAt 0x08FF).step.2.bus.read 0x0901).1 = 0x09 := by
  decide +kernel

end Machine

end Famicom
