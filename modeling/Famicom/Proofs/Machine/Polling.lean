import Famicom.Proofs.Machine.Retry

/-!
# Instructions in the joypads

An instruction can stand anywhere on the bus, also at `0x4016` and `0x4017`, where each read of a
byte polls a pad and shifts it. A pad shows zero or one, so it can spell `BRK` and `ORA (d,X)`, of
which only the second can have to wait for the picture once its opcode has been read. The retry then
polls the pads a second time.

* `retry_same_of_pollsRepeat`: where polling again shows the same bits and shifts nothing, the retry
  comes to the same as running once;
* `pollsRepeat_of_retry_same`: nowhere else, as a machine shows whose pointer on page zero leads to
  the status register or past it, by the bit that the second pad shows;
* `retry_same_iff_pollsRepeat`: the two together.
-/

namespace Famicom

open Processor

/-! ### Pads -/

namespace Joypad

/-- Polling the pad once more changes nothing and shows the same bit. -/
def Settled (p : Joypad) : Prop := p.poll.2.poll = p.poll

theorem settled_iff (p : Joypad) :
    p.Settled ↔ p.strobe = true ∨ 8 ≤ p.shifted ∨ p.shifted = 7 ∧ bit p.buttons 7 = true := by
  obtain ⟨buttons, strobe, shifted⟩ := p
  cases strobe with
  | true => simp [Settled, poll, line]
  | false =>
    rcases Nat.lt_trichotomy shifted 7 with h | rfl | h
    · have : ¬ 8 ≤ shifted := by omega
      have : ¬ 8 ≤ shifted + 1 := by omega
      simp [Settled, poll, *]
      omega
    · simp [Settled, poll, line]
    · have : 8 ≤ shifted := by omega
      simp [Settled, poll, line, this]

/-- A pad whose line is up is settled already if polling it once more does not shift it. -/
theorem settled_of_line {p : Joypad} (hline : p.line = true) (h : p.poll.2.poll.2 = p.poll.2) :
    p.Settled := by
  rw [settled_iff]
  obtain ⟨buttons, strobe, shifted⟩ := p
  cases strobe with
  | true => exact .inl rfl
  | false =>
    rcases Nat.lt_trichotomy shifted 7 with hs | rfl | hs
    · have : ¬ 8 ≤ shifted := by omega
      have : ¬ 8 ≤ shifted + 1 := by omega
      simp [poll, *] at h
    · exact .inr (.inr ⟨rfl, by simpa [line] using hline⟩)
    · exact .inr (.inl hs)

end Joypad

def socketBit : Option Joypad → UInt8
  | some p => atBit p.line 0
  | none => 0

def polled (o : Option Joypad) : Option Joypad := o.map fun p => p.poll.2

theorem polled_polled {o : Option Joypad} (h : ∀ p, o = some p → p.Settled) :
    socketBit (polled o) = socketBit o ∧ polled (polled o) = polled o := by
  cases o with
  | none => exact ⟨rfl, rfl⟩
  | some p =>
    have hp : (p.poll.2.line, p.poll.2.poll.2) = (p.line, p.poll.2) := h p rfl
    simp only [Prod.mk.injEq] at hp
    simp [socketBit, polled, hp]

theorem settled_of_polled {p : Joypad} (hbit : socketBit (polled (some p)) = socketBit (some p))
    (h : polled (polled (some p)) = polled (some p)) : p.Settled := by
  refine Prod.ext ?_ (by simpa [polled] using h)
  have hline : atBit p.poll.2.line 0 = atBit p.line 0 := hbit
  show p.poll.2.line = p.line
  revert hline
  generalize p.poll.2.line = l
  generalize p.line = l'
  revert l l'
  decide

theorem socketBit_of_line {p : Joypad} (h : p.line = true) : socketBit (some p) = 1 := by
  simp [socketBit, h]
  rfl

theorem line_of_socketBit {o : Option Joypad} (h : socketBit o ≠ 0) :
    socketBit o = 1 ∧ ∃ p, o = some p ∧ p.line = true := by
  cases o with
  | none => exact absurd rfl h
  | some p =>
    cases hp : p.line with
    | true => exact ⟨socketBit_of_line hp, p, rfl, hp⟩
    | false => exact absurd (by simp [socketBit, hp]; rfl) h

theorem socketBit_cases (o : Option Joypad) : socketBit o = 0 ∨ socketBit o = 1 := by
  by_cases h : socketBit o = 0
  · exact .inl h
  · exact .inr (line_of_socketBit h).1

namespace Bus

variable {κ : Type} [Cartridge κ] {cart : κ} {video : Picture.Video} {ram : Vector UInt8 0x800}
  {x y : Option Joypad} {genie : Option GameGenie} {stall : Nat}

theorem read_first : (Bus.mk cart video ram #v[x, y] genie stall).read 0x4016 =
    (socketBit x, ⟨cart, video, ram, #v[polled x, y], genie, stall⟩) := by
  cases x <;> rfl

theorem read_second : (Bus.mk cart video ram #v[x, y] genie stall).read 0x4017 =
    (socketBit y, ⟨cart, video, ram, #v[x, polled y], genie, stall⟩) := by
  cases y <;> rfl

end Bus

namespace Program

variable {κ : Type} [Cartridge κ] {undocumented : Bool} {c : Core} {m m' : Machine κ} {b : Bus κ}

/-! ### The two instructions that a pad can spell -/

theorem execute_brk (undocumented : Bool) :
    execute undocumented 0 = .note (fun c => .executing c 0)
      (.change (fun c => { c with operand := { c.operand with mode := .implied } })
        (.change (fun c => { c with operand := c.operand.setData 0 })
          ((perform .interrupt).bind fun extra => .done (2 + extra)))) := by
  rfl

theorem execute_brk_aside (h : isRegister c.pc = false) : (execute undocumented 0).Aside c := by
  rw [execute_brk]
  refine ⟨trivial, trivial, Obeys.bind (perform_interrupt_aside h) ?_⟩
  exact fun _ _ _ => trivial

theorem instruction_exec_brk (h : (b.read c.pc).1 = 0) (hd : c.regs.p.interruptDisable = true) :
    ((instruction undocumented).exec c b).2.2 = (b.read c.pc).2 := by
  show ((execute undocumented (b.read c.pc).1).exec { c with pc := c.pc + 1 }
    (b.read c.pc).2).2.2 = _
  rw [h, execute_brk]
  simp [exec, perform, core, bind, hd]

/-- What `ORA (d,X)` does once it has found `d`. -/
def oraThrough (low : UInt8) : Program Nat := do
  let c ← core
  let address ← readWordInPage (low + c.regs.x).toUInt16
  modifyOperand (·.setAddress address)
  let extra ← perform (.load true fun r m => r.setA (r.a ||| m))
  return 6 + extra

theorem execute_ora (undocumented : Bool) :
    execute undocumented 1 = .note (fun c => .executing c 1)
      (.change (fun c => { c with operand := { c.operand with mode := .indexedIndirect } })
        (fetch.bind oraThrough)) := by
  rfl

def pointer (b : Bus κ) (low : UInt8) : UInt16 :=
  wordOf (b.read (low + 1).toUInt16).1 (b.read low.toUInt16).1

theorem readWordInPage_next (low : UInt8) :
    wordOf (highByte low.toUInt16) (lowByte low.toUInt16 + 1) = (low + 1).toUInt16 := by
  rw [highByte_toUInt16]
  apply UInt16.toNat_inj.1
  simp [toNat_wordOf, lowByte]

theorem readWordInPage_exec (low : UInt8) (c : Core) (b : Bus κ) :
    (readWordInPage low.toUInt16).exec c b = (some (pointer b low), c, b) := by
  simp only [readWordInPage, readPair, readByte, bind_eq, bind, exec, readWordInPage_next, pointer,
    Bus.read_page_zero (highByte_toUInt16 _)]
  rfl

theorem readWordInPage_run (low : UInt8) (m : Machine κ) :
    (readWordInPage low.toUInt16).run m = .ok (pointer m.bus low) m := by
  have hw (a : UInt8) : Exec.mustWait m a.toUInt16 = false := by
    simp [Exec.mustWait, isRegister_of_page (highByte_toUInt16 a) (.inl (by decide))]
  simp only [readWordInPage, readPair, readByte, bind_eq, bind, run, readWordInPage_next, pointer,
    Exec.read_of_not_mustWait (hw _), Bus.read_page_zero (highByte_toUInt16 _)]
  rfl

theorem oraThrough_exec (low : UInt8) (hc : c.operand.mode = .indexedIndirect) :
    (oraThrough low).exec c b =
      let r := b.read (pointer b (low + c.regs.x))
      (some 6, { c with
        regs := c.regs.setA (c.regs.a ||| r.1)
        operand := c.operand.setAddress (pointer b (low + c.regs.x)) }, r.2) := by
  simp only [oraThrough, core, bind_eq, bind, exec, exec_bind, readWordInPage_exec]
  simp [modifyOperand, modifyCore, modifyRegs, perform, readOperand, core, readByte, bind, exec, hc,
    Operand.setAddress, Mode.addressesMemory, pageCycle]

theorem oraThrough_run (low : UInt8) (hc : m.cpu.operand.mode = .indexedIndirect)
    (hw : Exec.mustWait m (pointer m.bus (low + m.cpu.regs.x)) = true) :
    ∃ w, (oraThrough low).run m = .error .wait w := by
  simp only [oraThrough, core, bind_eq, bind, run, run_bind, readWordInPage_run]
  have hread := Exec.read_of_mustWait
    (m := m.onCore fun c =>
      { c with operand := c.operand.setAddress (pointer m.bus (low + m.cpu.regs.x)) }) hw
  simp only [Operand.setAddress] at hread
  simp [modifyOperand, modifyCore, perform, readOperand, core, readByte, bind, run, hc,
    Operand.setAddress, Mode.addressesMemory, hread]

theorem oraThrough_tidy (low : UInt8) (pc : UInt16) (c : Core) :
    (oraThrough low).Tidy κ .indexedIndirect pc c := by
  refine .bind (p := core) (Q := fun a d => a = d) rfl fun _ c _ => ?_
  refine .bind (readWordInPage_probing _ c) fun _ c _ => ?_
  have keeps (address : UInt16) (o : Operand) :
      Mode.indexedIndirect.Keeps o (o.setAddress address) := rfl
  refine .bind (modifyOperand_probing (keeps _) c) fun _ c _ => ?_
  rcases perform_cases .indexedIndirect pc (.load true fun r m => r.setA (r.a ||| m)) c with h | h
  · exact .of_probing (Q := fun _ _ => True) (h.bind fun _ _ _ => trivial)
  · exact .of_aside (h.bind fun _ _ _ => trivial)

/-- `ORA (d,X)`: the opcode and the byte after it, then what they come to. -/
theorem instruction_exec_ora (h : (b.read c.pc).1 = 1) :
    (instruction undocumented).exec c b =
      (oraThrough ((b.read c.pc).2.read (c.pc + 1)).1).exec
        { c with pc := c.pc + 1 + 1, operand := { c.operand with mode := .indexedIndirect } }
        ((b.read c.pc).2.read (c.pc + 1)).2 := by
  show (execute undocumented (b.read c.pc).1).exec { c with pc := c.pc + 1 } (b.read c.pc).2 = _
  rw [h, execute_ora]
  rfl

theorem instruction_run_ora (hop : opcodeAt m = 1) (hpc : isRegister m.cpu.pc = false)
    (hpc' : isRegister (m.cpu.pc + 1) = false) :
    ∃ j, (instruction undocumented).run m =
      (oraThrough ((m.bus.read m.cpu.pc).2.read (m.cpu.pc + 1)).1).run
        ⟨{ m.cpu with
            pc := m.cpu.pc + 1 + 1, operand := { m.cpu.operand with mode := .indexedIndirect } },
          ((m.bus.read m.cpu.pc).2.read (m.cpu.pc + 1)).2, j⟩ := by
  have hop : (m.bus.read m.cpu.pc).1 = 1 := hop
  rw [instruction, bind_eq, run_bind, run_fetch (by simp [Exec.mustWait, hpc])]
  simp only [hop, execute_ora, run]
  rw [run_bind, run_fetch (by simp [Exec.mustWait, fetched, hpc'])]
  exact ⟨_, rfl⟩

theorem bus_of_ora_waits (hm : m.cpu.sync.mustWait = true) (hop : opcodeAt m = 1)
    (hpc : isRegister m.cpu.pc = false) (hpc' : isRegister (m.cpu.pc + 1) = false)
    (h : (instruction undocumented).run m = .error .wait m') :
    m'.bus = ((m.bus.read m.cpu.pc).2.read (m.cpu.pc + 1)).2 := by
  obtain ⟨j, hj⟩ := instruction_run_ora hop hpc hpc'
  rw [hj] at h
  have hleft := oraThrough_tidy _ 0 _ _ m' rfl (by exact hm) h
  exact hleft.bus_eq (hleft.code_noPad (by decide))

end Program

/-- Where an instruction stands at a pad, polling the pads it is fetched from once more changes
nothing. Only a pad whose line is up makes an instruction that can wait. -/
def PollsRepeat (pc : UInt16) (pads : Vector (Option Joypad) 2) : Prop :=
  (pc = 0x4016 → ∀ p, pads[0] = some p → p.line = true →
    p.Settled ∧ ∀ q, pads[1] = some q → q.Settled) ∧
  (pc = 0x4017 → ∀ p, pads[1] = some p → p.line = true → p.Settled)

namespace Machine

variable {κ : Type} [Cartridge κ] {m m' : Machine κ}

/-! ### Where polling twice is polling once -/

/-- `BRK` does not wait unless the byte after it is a register. -/
theorem opcode_ne_brk_of_waits (h : m.step = (.waits, m')) (hpc : isRegister m.cpu.pc = false)
    (hpc' : isRegister (m.cpu.pc + 1) = false) : Program.opcodeAt m ≠ 0 := by
  intro hop
  refine step_ne_waits_of_aside (by simp [Exec.mustWait, hpc]) ?_ (congrArg Prod.fst h)
  rw [hop]
  exact Program.execute_brk_aside hpc'

/-- Running `ORA (d,X)` again comes to the same if its bytes read the same again. -/
theorem retry_same_of_ora (h : m.step = (.waits, m')) (hpc : isRegister m.cpu.pc = false)
    (hpc' : isRegister (m.cpu.pc + 1) = false) (hop : Program.opcodeAt m = 1) {b : Bus κ}
    (hb : ((m.bus.read m.cpu.pc).2.read (m.cpu.pc + 1)).2 = b) (hop' : (b.read m.cpu.pc).1 = 1)
    (hagain : (b.read m.cpu.pc).2.read (m.cpu.pc + 1) =
      (m.bus.read m.cpu.pc).2.read (m.cpu.pc + 1)) : SameOutcome m'.step m.inStep.step := by
  obtain ⟨-, w, hrun, rfl⟩ := run_of_waits h
  have hw : ((w.takeBack m.cpu.pc).2).bus = b :=
    (Program.bus_of_ora_waits (mustWait_of_waits h) hop hpc hpc' hrun).trans hb
  refine retry_same h (fun _ => ?_) ?_
  · rw [hw, hop, hop']
  · rw [hw, Program.instruction_exec_ora hop', Program.instruction_exec_ora hop, hagain]

theorem pad_near {pc : UInt16} (h : ¬ ∀ i < 3, Bus.NoPad (pc + .ofNat i)) :
    pc = 0x4014 ∨ pc = 0x4015 ∨ pc = 0x4016 ∨ pc = 0x4017 := by
  refine Decidable.byContradiction fun hn => h fun i hi => ?_
  obtain rfl | rfl | rfl : i = 0 ∨ i = 1 ∨ i = 2 := by omega
  all_goals
    simp only [Bus.NoPad]
    grind

theorem sockets (pads : Vector (Option Joypad) 2) : ∃ x y, pads = #v[x, y] := by
  refine ⟨pads[0], pads[1], Vector.ext fun i hi => ?_⟩
  obtain rfl | rfl : i = 0 ∨ i = 1 := by omega
  · rfl
  · rfl

theorem retry_same_of_pollsRepeat (h : m.step = (.waits, m'))
    (hp : PollsRepeat m.cpu.pc m.bus.pads) : SameOutcome m'.step m.inStep.step := by
  by_cases hfar : ∀ i < 3, Bus.NoPad (m.cpu.pc + .ofNat i)
  · obtain ⟨w, hw, rfl⟩ := attempt_of_waits h
    have hbus : w.bus = m.bus := hw.bus_eq (hw.code_noPad hfar)
    refine retry_same h (fun _ => ?_) ?_
    · exact congrArg (fun b => (b.read m.cpu.pc).1) hbus
    · exact congrArg _ hbus
  obtain ⟨⟨⟨regs, pc, operand⟩, cycles, total, sync, halted, undocumented⟩, bus, journal⟩ := m
  obtain ⟨cart, video, ram, pads, genie, stall⟩ := bus
  obtain ⟨x, y, rfl⟩ := sockets pads
  rcases pad_near hfar with hpc | hpc | hpc | hpc <;> simp only at hpc <;> subst hpc
  · exact absurd rfl (opcode_ne_brk_of_waits h rfl rfl)
  · exact absurd rfl (opcode_ne_brk_of_waits h rfl rfl)
  · -- the opcode comes from the first pad, the byte after it from the second
    have h0 : socketBit x ≠ 0 := by
      simpa [Program.opcodeAt, Bus.read_first] using opcode_ne_brk_of_waits h rfl rfl
    obtain ⟨h1, p, rfl, hline⟩ := line_of_socketBit h0
    obtain ⟨hx, hy⟩ := hp.1 rfl p rfl hline
    have hx := polled_polled (o := some p) (by simpa using hx)
    have hy := polled_polled (o := y) hy
    refine retry_same_of_ora (b := ⟨cart, video, ram, #v[polled (some p), polled y], genie, stall⟩)
      h rfl rfl h1 rfl (hx.1.trans h1) ?_
    show (Bus.read (Bus.read ⟨cart, video, ram, _, genie, stall⟩ 0x4016).2 0x4017) =
      (Bus.read (Bus.read ⟨cart, video, ram, _, genie, stall⟩ 0x4016).2 0x4017)
    rw [Bus.read_first, Bus.read_second, Bus.read_first, Bus.read_second, hx.2, hy.1, hy.2]
  · -- the opcode comes from the second pad, and nothing answers after it
    have h0 : socketBit y ≠ 0 := by
      simpa [Program.opcodeAt, Bus.read_second] using opcode_ne_brk_of_waits h rfl rfl
    obtain ⟨h1, p, rfl, hline⟩ := line_of_socketBit h0
    have hy := polled_polled (o := some p) (by simpa using hp.2 rfl p rfl hline)
    refine retry_same_of_ora (b := ⟨cart, video, ram, #v[x, polled (some p)], genie, stall⟩)
      h rfl rfl h1 rfl (hy.1.trans h1) ?_
    show (Bus.read (Bus.read ⟨cart, video, ram, _, genie, stall⟩ 0x4017).2 0x4018) =
      (Bus.read (Bus.read ⟨cart, video, ram, _, genie, stall⟩ 0x4017).2 0x4018)
    rw [Bus.read_second, Bus.read_second, hy.2]

theorem step_waits_of_ora (hop : Program.opcodeAt m = 1) (hpc : isRegister m.cpu.pc = false)
    (hpc' : isRegister (m.cpu.pc + 1) = false) (hh : m.cpu.halted = false)
    (hdue : m.nmiDue = false) (hm : m.cpu.sync.mustWait = true)
    (hreg : isRegister (Program.pointer ((m.bus.read m.cpu.pc).2.read (m.cpu.pc + 1)).2
      (((m.bus.read m.cpu.pc).2.read (m.cpu.pc + 1)).1 + m.cpu.regs.x)) = true) :
    ∃ m', m.step = (.waits, m') := by
  obtain ⟨j, hj⟩ := Program.instruction_run_ora hop hpc hpc'
  obtain ⟨w, hw⟩ := Program.oraThrough_run (m := ⟨{ m.cpu with
    pc := m.cpu.pc + 1 + 1, operand := { m.cpu.operand with mode := .indexedIndirect } }, _, j⟩)
    ((m.bus.read m.cpu.pc).2.read (m.cpu.pc + 1)).1 rfl
    ((Exec.mustWait_of_sync hm).trans hreg)
  exact ⟨_, step_waits_iff.mpr ⟨hh, w, by
    rw [program_of_not_due hdue, takeNmi_of_not_due hdue, hj, hw], rfl⟩⟩

/-! ### Where it is not -/

/-- A bus on which `ORA (0,X)` reads the status of the picture unit and `ORA (1,X)` a register that
reads as zero: page zero begins with `02 20 20`. -/
def padBus (cart : κ) (x y : Option Joypad) : Bus κ where
  cartridge := cart
  video := .initial (Cartridge.layout cart)
  ram := (Vector.replicate _ 0).setIfInBounds 0 0x02 |>.setIfInBounds 1 0x20
    |>.setIfInBounds 2 0x20
  pads := #v[x, y]

/-- A processor that has just been reset, about to run what the pads say. -/
def readingPads (cart : κ) (pc : UInt16) (x y : Option Joypad) : Machine κ where
  cpu := { pc := pc, sync := { awaiting := true } }
  bus := padBus cart x y

variable {cart : κ} {x y o : Option Joypad} {c : Core} {undocumented : Bool}

theorem padBus_first : (padBus cart x y).read 0x4016 = (socketBit x, padBus cart (polled x) y) :=
  Bus.read_first

theorem padBus_second : (padBus cart x y).read 0x4017 = (socketBit y, padBus cart x (polled y)) :=
  Bus.read_second

theorem padBus_pointer (o : Option Joypad) :
    Program.pointer (padBus cart x y) (socketBit o) =
      if socketBit o = 0 then 0x2002 else 0x2020 := by
  have hp : Program.pointer (padBus cart x y) 0 = 0x2002 ∧
      Program.pointer (padBus cart x y) 1 = 0x2020 := by
    simp only [Program.pointer, Bus.read_page_zero (highByte_toUInt16 _), padBus]
    exact ⟨by decide +kernel, by decide +kernel⟩
  rcases socketBit_cases o with h | h
  · rw [h, hp.1]
    rfl
  · rw [h, hp.2]
    rfl

/-- What `ORA (d,X)` comes to on that bus, if a pad says what `d` is. -/
theorem oraThrough_padBus (cart : κ) (hr : c.regs = {}) (hc : c.operand.mode = .indexedIndirect) :
    let r := (Program.oraThrough (socketBit o)).exec c (padBus cart x y)
    r.2.2.pads = #v[x, y] ∧ r.2.1.regs.a = if socketBit o = 0 then 0x80 else 0 := by
  intro r
  have hx : socketBit o + c.regs.x = socketBit o := by simp [hr]
  have ha : c.regs.a = 0 := by rw [hr]
  simp only [r, Program.oraThrough_exec _ hc, hx, ha, padBus_pointer, Registers.setA]
  rcases socketBit_cases o with h | h
  · simp only [h, if_true]
    refine ⟨Bus.read_pads (by decide), ?_⟩
    show 0 ||| ((({} : Picture.Registers).status.toByte &&& 0xE0) |||
      (({} : Picture.Registers).lastWritten &&& 0x1F)) = 0x80
    decide
  · simp only [h, if_neg (by decide : ¬ (1 : UInt8) = 0)]
    refine ⟨Bus.read_pads (by decide), ?_⟩
    show (0 : UInt8) ||| 0 = 0
    decide

/-- What an instruction does whose opcode the first pad shows. -/
theorem exec_first (cart : κ) (hpc : c.pc = 0x4016) (hr : c.regs = {}) :
    let r := (Program.instruction undocumented).exec c (padBus cart x y)
    r.2.2.pads[0] = polled x ∧ (socketBit x = 1 → r.2.2.pads[1] = polled y ∧
      r.2.1.regs.a = if socketBit y = 0 then 0x80 else 0) := by
  intro r
  have hop : ((padBus cart x y).read c.pc).1 = socketBit x := by rw [hpc, padBus_first]
  rcases socketBit_cases x with h | h
  · have hb : r.2.2 = ((padBus cart x y).read c.pc).2 :=
      Program.instruction_exec_brk (hop.trans h) (by rw [hr]; rfl)
    rw [hb, hpc, padBus_first, h]
    exact ⟨rfl, fun h => absurd h (by decide)⟩
  · have hrest : r = _ := Program.instruction_exec_ora (hop.trans h)
    have hsecond : ((padBus cart x y).read c.pc).2.read (c.pc + 1) =
        (socketBit y, padBus cart (polled x) (polled y)) := by
      rw [hpc, padBus_first]
      exact padBus_second
    rw [hsecond] at hrest
    obtain ⟨hpads, ha⟩ := oraThrough_padBus cart (x := polled x) (y := polled y) (o := y)
      (c := { c with pc := c.pc + 1 + 1, operand := { c.operand with mode := .indexedIndirect } })
      hr rfl
    rw [hrest, hpads]
    exact ⟨rfl, fun _ => ⟨rfl, ha⟩⟩

/-- The same for the second one, after which nothing answers. -/
theorem exec_second (cart : κ) (hpc : c.pc = 0x4017) (hr : c.regs = {}) :
    ((Program.instruction undocumented).exec c (padBus cart x y)).2.2.pads[1] = polled y := by
  have hop : ((padBus cart x y).read c.pc).1 = socketBit y := by rw [hpc, padBus_second]
  rcases socketBit_cases y with h | h
  · rw [Program.instruction_exec_brk (hop.trans h) (by rw [hr]; rfl), hpc, padBus_second]
    rfl
  · have hsecond : ((padBus cart x y).read c.pc).2.read (c.pc + 1) =
        (socketBit none, padBus cart x (polled y)) := by
      rw [hpc, padBus_second]
      rfl
    obtain ⟨hpads, -⟩ := oraThrough_padBus cart (x := x) (y := polled y) (o := none)
      (c := { c with pc := c.pc + 1 + 1, operand := { c.operand with mode := .indexedIndirect } })
      hr rfl
    rw [Program.instruction_exec_ora (hop.trans h), hsecond, hpads]
    rfl

theorem readingPads_waits {pc : UInt16} {b : Bus κ} (hpc : pc = 0x4016 ∨ pc = 0x4017)
    (hop : ((padBus cart x y).read pc).1 = 1)
    (hb : ((padBus cart x y).read pc).2.read (pc + 1) = (socketBit o, b))
    (hb' : ∃ x' y', b = padBus cart x' y') :
    ∃ m', (readingPads cart pc x y).step = (.waits, m') ∧ m'.bus = b := by
  obtain ⟨x', y', rfl⟩ := hb'
  have haway : isRegister pc = false ∧ isRegister (pc + 1) = false := by
    rcases hpc with rfl | rfl <;> exact ⟨rfl, rfl⟩
  obtain ⟨m', hm'⟩ := step_waits_of_ora (m := readingPads cart pc x y) hop haway.1 haway.2
    rfl rfl rfl (by
      show isRegister (Program.pointer (((padBus cart x y).read pc).2.read (pc + 1)).2
        ((((padBus cart x y).read pc).2.read (pc + 1)).1 + 0)) = true
      rw [hb, UInt8.add_zero, padBus_pointer]
      split <;> rfl)
  obtain ⟨-, w, hrun, rfl⟩ := run_of_waits hm'
  refine ⟨_, hm', ?_⟩
  have hw : w.bus = (((padBus cart x y).read pc).2.read (pc + 1)).2 :=
    Program.bus_of_ora_waits (m := readingPads cart pc x y) rfl hop haway.1 haway.2 hrun
  rw [hb] at hw
  exact hw

/-- What running such an instruction again has in common with running it once. -/
theorem exec_same_of_retry_same {pc : UInt16} {x' y' : Option Joypad} {m' : Machine κ}
    (h : (readingPads cart pc x y).step = (.waits, m')) (hb : m'.bus = padBus cart x' y')
    (hsame : SameOutcome m'.step (readingPads cart pc x y).inStep.step) :
    ∃ c c' : Core, (c.pc = pc ∧ c.regs = {}) ∧ (c'.pc = pc ∧ c'.regs = {}) ∧
      let r := (Program.instruction true).exec c (padBus cart x y)
      let r' := (Program.instruction true).exec c' (padBus cart x' y')
      r'.2.1.regs = r.2.1.regs ∧ r'.2.2.pads = r.2.2.pads := by
  obtain ⟨j, hj⟩ := step_after_waits h m'.bus m'.journal
  obtain ⟨j', hj'⟩ := step_inStep h
  rw [show m'.step = _ from hj, hj'] at hsame
  obtain ⟨-, hbus, hcpu⟩ := hsame
  refine ⟨(readingPads cart pc x y).cpu.toCore, m'.cpu.toCore, ⟨rfl, rfl⟩, ?_, ?_⟩
  · rw [cpu_of_waits h]
    exact ⟨rfl, rfl⟩
  · rw [← hb]
    have hregs := congrArg (fun c : Cpu => c.regs) hcpu
    have hpads := congrArg Bus.pads hbus
    simp only [finish_outcome_frame] at hregs hpads
    exact ⟨hregs, hpads⟩

/-- The accumulator that `ORA (d,X)` leaves tells what the second pad showed. -/
theorem socketBit_of_accumulator {o' : Option Joypad}
    (h : (if socketBit o' = 0 then 0x80 else 0 : UInt8) = if socketBit o = 0 then 0x80 else 0) :
    socketBit o' = socketBit o := by
  rcases socketBit_cases o with ho | ho <;> rcases socketBit_cases o' with ho' | ho' <;>
    rw [ho, ho'] at h ⊢
  all_goals
    revert h
    decide

/-- If the retry of what the first pad spells comes to the same, the pads are settled. -/
theorem settled_of_retry_first (cart : κ) {p : Joypad} (hline : p.line = true)
    (h : ∀ m', (readingPads cart 0x4016 (some p) y).step = (.waits, m') →
      SameOutcome m'.step (readingPads cart 0x4016 (some p) y).inStep.step) :
    p.Settled ∧ ∀ q, y = some q → q.Settled := by
  have hx : socketBit (some p) = 1 := socketBit_of_line hline
  have hop : ((padBus cart (some p) y).read 0x4016).1 = 1 := by rw [padBus_first, hx]
  have hb : ((padBus cart (some p) y).read 0x4016).2.read (0x4016 + 1) =
      (socketBit y, padBus cart (polled (some p)) (polled y)) := by
    rw [padBus_first]
    exact padBus_second
  obtain ⟨m', hm', hb'⟩ := readingPads_waits (.inl rfl) hop hb ⟨_, _, rfl⟩
  obtain ⟨c, c', hc, hc', hregs, hpads⟩ := exec_same_of_retry_same hm' hb' (h _ hm')
  obtain ⟨hx₁, hy₁⟩ := exec_first cart (x := some p) (y := y) hc.1 hc.2
  obtain ⟨hx₂, hy₂⟩ := exec_first cart (x := polled (some p)) (y := polled y) hc'.1 hc'.2
  have hp : p.Settled := by
    refine Joypad.settled_of_line hline ?_
    have hxx : polled (polled (some p)) = polled (some p) := by rw [← hx₂, hpads, hx₁]
    simpa [polled] using hxx
  refine ⟨hp, fun q hq => ?_⟩
  subst hq
  -- now the opcode reads the same again, and the second pad decides about the operand
  have hx' := (polled_polled (o := some p) (by simpa using hp)).1
  obtain ⟨hy₁, ha₁⟩ := hy₁ hx
  obtain ⟨hy₂, ha₂⟩ := hy₂ (hx'.trans hx)
  refine settled_of_polled ?_ (by rw [← hy₂, hpads, hy₁])
  rw [hregs, ha₁] at ha₂
  exact (socketBit_of_accumulator ha₂).symm

/-- If the retry of what the second pad spells comes to the same, that pad is settled. -/
theorem settled_of_retry_second (cart : κ) {p : Joypad} (hline : p.line = true)
    (h : ∀ m', (readingPads cart 0x4017 x (some p)).step = (.waits, m') →
      SameOutcome m'.step (readingPads cart 0x4017 x (some p)).inStep.step) : p.Settled := by
  have hy : socketBit (some p) = 1 := socketBit_of_line hline
  have hop : ((padBus cart x (some p)).read 0x4017).1 = 1 := by rw [padBus_second, hy]
  have hb : ((padBus cart x (some p)).read 0x4017).2.read (0x4017 + 1) =
      (socketBit none, padBus cart x (polled (some p))) := by
    rw [padBus_second]
    rfl
  obtain ⟨m', hm', hb'⟩ := readingPads_waits (.inr rfl) hop hb ⟨_, _, rfl⟩
  obtain ⟨c, c', hc, hc', -, hpads⟩ := exec_same_of_retry_same hm' hb' (h _ hm')
  refine Joypad.settled_of_line hline ?_
  have hyy : polled (polled (some p)) = polled (some p) := by
    rw [← exec_second cart (x := x) (y := polled (some p)) hc'.1 hc'.2, hpads,
      exec_second cart hc.1 hc.2]
  simpa [polled] using hyy

theorem pollsRepeat_of_retry_same {pc : UInt16} {pads : Vector (Option Joypad) 2}
    (h : ∀ m m' : Machine κ, m.cpu.pc = pc → m.bus.pads = pads → m.step = (.waits, m') →
      SameOutcome m'.step m.inStep.step) (cart : κ) : PollsRepeat pc pads := by
  obtain ⟨x, y, rfl⟩ := sockets pads
  constructor
  · rintro rfl p (rfl : x = some p) hline
    exact settled_of_retry_first cart hline fun m' hm' => h _ m' rfl rfl hm'
  · rintro rfl p (rfl : y = some p) hline
    exact settled_of_retry_second cart hline fun m' hm' => h _ m' rfl rfl hm'

/-- **Running an instruction again comes to the same as running it once exactly where polling the
pads that it is fetched from once more changes nothing.** -/
theorem retry_same_iff_pollsRepeat (cart : κ) (pc : UInt16) (pads : Vector (Option Joypad) 2) :
    (∀ m m' : Machine κ, m.cpu.pc = pc → m.bus.pads = pads → m.step = (.waits, m') →
      SameOutcome m'.step m.inStep.step) ↔ PollsRepeat pc pads := by
  constructor
  · exact fun h => pollsRepeat_of_retry_same h cart
  · rintro hp m m' rfl rfl h
    exact retry_same_of_pollsRepeat h hp

/-- A pad with its first button held down spells `ORA (0,X)`; polled again it spells `BRK`. -/
theorem retry_differs :
    let m := readingPads Board.blank 0x4016 (some { buttons := 1 }) (some {})
    m.step.1 = .waits ∧ m.inStep.step.1 = .ran 6 ∧ m.step.2.step.1 = .ran 2 ∧
      ¬ SameOutcome m.step.2.step m.inStep.step := by
  have hdirect : (readingPads Board.blank 0x4016 (some { buttons := 1 }) (some {})).inStep.step.1 =
      .ran 6 := by decide +kernel
  have hretry : (readingPads Board.blank 0x4016 (some { buttons := 1 }) (some {})).step.2.step.1 =
      .ran 2 := by decide +kernel
  refine ⟨by decide +kernel, hdirect, hretry, fun h => ?_⟩
  have hsame := h.1
  rw [hdirect, hretry] at hsame
  cases hsame

end Machine

end Famicom
