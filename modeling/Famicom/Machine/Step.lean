import Famicom.Machine.Instruction
import Famicom.Machine.Walk

/-!
# Running a machine

`Machine.step` runs one instruction or enters a pending interrupt.  An instruction that has to
wait for the picture is taken back: the program counter returns to it, and it is marked so that
next time it goes through, before anything else can come between.
-/

namespace Famicom.Machine

open Processor

variable {κ : Type} [Cartridge κ]

/-- Accounts for a step that ran, with the cycles for which transfers held the bus. -/
def settle (m : Machine κ) (cycles : Nat) : Progress × Machine κ :=
  let ⟨cpu, bus, journal⟩ := m
  let ⟨stall, bus⟩ := bus.takeStall
  let cycles := cycles + stall
  (.ran cycles,
    ⟨{ cpu with
        sync := { cpu.sync with retrying := false }
        cycles := cpu.cycles + .ofNat cycles
        totalCycles := cpu.totalCycles + cycles }, bus, journal⟩)

/-- Takes a step back that has to wait. -/
def takeBack (m : Machine κ) (start : UInt16) : Progress × Machine κ :=
  let ⟨cpu, bus, journal⟩ := m
  let journal := journal.record (.rolledBack start cpu.cycles)
  (.waits, ⟨{ cpu with pc := start, sync := { cpu.sync with retrying := true } }, bus, journal⟩)

def halt (m : Machine κ) (start : UInt16) : Progress × Machine κ :=
  let m := m.record (.halted ⟨start, m.cpu.totalCycles⟩)
  (.halted start, { m with cpu := { m.cpu with pc := start, halted := true } })

/-- Brings a step to its end, however it went. -/
def finish (start : UInt16) : EStateM.Result Trap (Machine κ) Nat → Progress × Machine κ
  | .ok cycles m => m.settle cycles
  | .error .wait m => m.takeBack start
  | .error .jam m => m.halt start

/-- Enters an interrupt from outside. -/
def interrupt (vector : UInt16) : Program Nat := do
  Program.enterInterrupt vector false
  return Cpu.interruptCycles

/-- An interrupt of the picture unit is due: it is pending, and no instruction that was taken back
comes first. -/
def nmiDue (m : Machine κ) : Bool := !m.cpu.sync.retrying && m.bus.video.regs.nmiPending

/-- Takes the interrupt if it is due. -/
def takeNmi (m : Machine κ) : Machine κ :=
  if m.nmiDue then
    let ⟨cpu, bus, journal⟩ := m
    ⟨cpu, { bus with video := bus.video.takeNmi.2 }, journal⟩
  else m

/-- What the next step runs: an instruction, or the entry of an interrupt that is due. -/
def program (m : Machine κ) : Program Nat :=
  if m.nmiDue then interrupt Cpu.nmiVector else .instruction m.cpu.undocumented

/-- Runs one instruction, or enters an interrupt that is due. -/
def step (m : Machine κ) : Progress × Machine κ :=
  if m.cpu.halted then (.halted m.cpu.pc, m)
  else
    let start := m.cpu.pc
    finish start (m.program.run m.takeNmi)

def accesses (m : Machine κ) : List Access :=
  if m.cpu.halted then [] else m.program.accesses m.takeNmi

/-- Requests an interrupt, which is ignored while interrupts are disabled. -/
def irq (m : Machine κ) : Progress × Machine κ :=
  if m.cpu.regs.p.interruptDisable || m.cpu.halted then (.ran 0, m)
  else
    let start := m.cpu.pc
    finish start ((interrupt Cpu.irqVector).run m)

/-- Runs through a number of cycles, ending early where the picture has to be brought up to date. -/
def burst (m : Machine κ) (budget : Nat) : Outcome × Machine κ := walk step budget 0 m

/-- The reset line of the processor. -/
def resetCpu (m : Machine κ) : Machine κ :=
  let pc := wordOf (m.bus.peek (Cpu.resetVector + 1)) (m.bus.peek Cpu.resetVector)
  { m with cpu := m.cpu.afterReset pc }.record (.resetTo pc)

end Famicom.Machine
