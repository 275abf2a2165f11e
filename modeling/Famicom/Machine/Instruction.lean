import Famicom.Machine.Program
import Famicom.Processor.Action

/-!
# Instructions

An instruction fetches its opcode, finds its operand (`resolve`) and acts on it (`perform`).  Its
cost is what the opcode matrix says and what `perform` adds.
-/

namespace Famicom.Program

open Processor

/-! ### Finding the operand -/

/-- Finds the operand that an instruction names by a mode. -/
def resolve (mode : Mode) : Program Unit := do
  modifyOperand fun o => { o with mode := mode }
  match mode with
  | .implied => modifyOperand (·.setData 0)
  | .accumulator =>
    let c ← core
    modifyOperand (·.setData c.regs.a)
  | .immediate =>
    let data ← fetch
    modifyOperand (·.setData data)
  | .zeroPage =>
    let low ← fetch
    modifyOperand (·.setAddress low.toUInt16)
  | .zeroPageX =>
    let low ← fetch
    let c ← core
    modifyOperand (·.setAddress (low + c.regs.x).toUInt16)
  | .zeroPageY =>
    let low ← fetch
    let c ← core
    modifyOperand (·.setAddress (low + c.regs.y).toUInt16)
  | .relative =>
    let distance ← fetch
    let c ← core
    modifyOperand (·.setRelative c.pc distance)
  | .absolute =>
    let address ← fetchWord
    modifyOperand (·.setAddress address)
  | .absoluteX =>
    let base ← fetchWord
    let c ← core
    modifyOperand (·.setIndexed base c.regs.x)
  | .absoluteY =>
    let base ← fetchWord
    let c ← core
    modifyOperand (·.setIndexed base c.regs.y)
  | .indirect =>
    let pointer ← fetchWord
    let address ← readWordInPage pointer
    modifyOperand (·.setAddress address)
  | .indexedIndirect =>
    let low ← fetch
    let c ← core
    let address ← readWordInPage (low + c.regs.x).toUInt16
    modifyOperand (·.setAddress address)
  | .indirectIndexed =>
    let low ← fetch
    let base ← readWordInPage low.toUInt16
    let c ← core
    modifyOperand (·.setIndexed base c.regs.y)

def readOperand : Program UInt8 := do
  let c ← core
  if c.operand.mode.addressesMemory then readByte c.operand.address else return c.operand.data

/-- Writes the operand, which without an address is the accumulator. -/
def writeOperand (byte : UInt8) : Program Unit := do
  let c ← core
  match c.operand.mode with
  | .accumulator | .implied => modifyRegs fun r => { r with a := byte }
  | _ => writeByte c.operand.address byte

/-! ### Acting on it -/

/-- Enters an interrupt: the way back and the flags go on the stack, further interrupts are
disabled, and the vector says where to go. -/
def enterInterrupt (vector : UInt16) (byInstruction : Bool) : Program Unit := do
  let c ← core
  pushWord c.pc
  push (c.regs.p.pushed byInstruction)
  modifyRegs fun r => { r with p := { r.p with interruptDisable := true } }
  let target ← readWord vector
  goto target

/-- An address lies on the stack's page. -/
def inStack (address : UInt16) : Bool := highByte address == 1

/-- Goes to a subroutine.  The upper byte of its address is fetched only after the way back has been
pushed, which shows when the instruction itself lies on the stack. -/
def call : Program Unit := do
  let c ← core
  let back := c.pc - 1
  pushWord back
  if inStack back then
    let high ← readByte back
    goto (wordOf high (lowByte c.operand.address))
  else goto c.operand.address

/-- The cycle that crossing a page costs. -/
def pageCycle (o : Operand) : Nat := if o.pageCrossed then 1 else 0

/-- Does what an instruction does, and tells the cycles beyond those of its opcode. -/
def perform : Action → Program Nat
  | .compute f => do
    modifyRegs f
    return 0
  | .load pays f => do
    let byte ← readOperand
    modifyRegs (f · byte)
    let c ← core
    return if pays then pageCycle c.operand else 0
  | .store byte settle => do
    let c ← core
    writeOperand (byte c.regs (highByte c.operand.base))
    modifyRegs settle
    return 0
  | .modify byte settle => do
    let old ← readOperand
    let c ← core
    let new := byte c.regs old
    writeOperand new
    modifyRegs (settle · old new)
    return 0
  | .branch taken => do
    let c ← core
    if taken c.regs.p then
      goto c.operand.address
      return 1 + pageCycle c.operand
    else return 0
  | .jump => do
    let c ← core
    goto c.operand.address
    return 0
  | .call => do
    call
    return 0
  | .returnFromCall => do
    let back ← popWord
    goto (back + 1)
    return 0
  | .returnFromInterrupt => do
    let flags ← pop
    modifyRegs fun r => { r with p := .pulled flags }
    let back ← popWord
    goto back
    return 0
  | .interrupt => do
    let c ← core
    if c.regs.p.interruptDisable then return 0
    else
      let _ ← fetch
      enterInterrupt Cpu.irqVector true
      return Cpu.interruptCycles - 2
  | .push byte => do
    let c ← core
    push (byte c.regs)
    return 0
  | .pull f => do
    let byte ← pop
    modifyRegs (f · byte)
    return 0
  | .jam => .jam

def allowed (undocumented : Bool) (opcode : UInt8) : Bool :=
  (Encoding.decode opcode).documented || undocumented

/-- Stops the processor if the opcode may not run. -/
def allow (undocumented : Bool) (opcode : UInt8) : Program Unit :=
  if allowed undocumented opcode then return
  else .note (fun _ => .undocumented opcode) .jam

/-- Does what an opcode asks for, and tells the cycles; `undocumented` says whether opcodes that are
not documented may run. -/
def execute (undocumented : Bool) (opcode : UInt8) : Program Nat := do
  allow undocumented opcode
  record fun c => .executing c opcode
  let e := Encoding.decode opcode
  resolve e.mode
  let extra ← perform (e.mnemonic.action e.mode)
  return e.cycles + extra

/-- An instruction, which tells its cycles. -/
def instruction (undocumented : Bool) : Program Nat := do
  let opcode ← fetch
  execute undocumented opcode

end Famicom.Program
