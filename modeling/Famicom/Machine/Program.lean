import Famicom.Machine.Basic

/-!
# Programs

What an instruction does is written as a program: a tree of the things it does one after another,
in which what comes next may depend on the bytes read so far.  A program can be run on a machine
(`Program.run`), and the accesses that a run makes can be listed (`Program.accesses`).  A run ends
early at an access that is refused, or when the processor stops for good.  What was changed before
stays changed; it is the caller who puts the program counter back.
-/

namespace Famicom

open Processor

/-- What a byte is read for. -/
inductive Purpose where
  /-- it is part of an instruction -/
  | code
  /-- it is worked on -/
  | data
  deriving DecidableEq, Repr

/-- An access of the processor to the bus. -/
inductive Access where
  | read (purpose : Purpose) (address : UInt16)
  | write (address : UInt16) (byte : UInt8)
  deriving DecidableEq, Repr

def Access.address : Access → UInt16
  | .read _ address => address
  | .write address _ => address

/-- A program with a result. -/
inductive Program (α : Type) : Type where
  /-- it is over -/
  | done (a : α)
  /-- the processor stops for good -/
  | jam
  /-- looks at what instructions work on -/
  | look (next : Core → Program α)
  | change (f : Core → Core) (next : Program α)
  | note (event : Cpu → Event) (next : Program α)
  | read (purpose : Purpose) (address : UInt16) (next : UInt8 → Program α)
  | write (address : UInt16) (byte : UInt8) (next : Program α)

namespace Program

variable {α β : Type}

/-- One program after another. -/
def bind : Program α → (α → Program β) → Program β
  | .done a, f => f a
  | .jam, _ => .jam
  | .look next, f => .look fun c => (next c).bind f
  | .change g next, f => .change g (next.bind f)
  | .note event next, f => .note event (next.bind f)
  | .read purpose address next, f => .read purpose address fun byte => (next byte).bind f
  | .write address byte next, f => .write address byte (next.bind f)

instance : Monad Program where
  pure := .done
  bind := bind

/-! ### Running -/

section Run

variable {κ : Type} [Cartridge κ]

def run : Program α → Machine κ → EStateM.Result Trap (Machine κ) α
  | .done a, m => .ok a m
  | .jam, m => .error .jam m
  | .look next, m => (next m.cpu.toCore).run m
  | .change f next, m => next.run (m.onCore f)
  | .note event next, m => next.run (m.record (event m.cpu))
  | .read _ address next, m =>
    match Exec.read address m with
    | .ok byte m => (next byte).run m
    | .error t m => .error t m
  | .write address byte next, m =>
    match Exec.write address byte m with
    | .ok _ m => next.run m
    | .error t m => .error t m

/-- The accesses that a run makes, without the one that is refused. -/
def accesses : Program α → Machine κ → List Access
  | .done _, _ => []
  | .jam, _ => []
  | .look next, m => (next m.cpu.toCore).accesses m
  | .change f next, m => next.accesses (m.onCore f)
  | .note event next, m => next.accesses (m.record (event m.cpu))
  | .read purpose address next, m =>
    match Exec.read address m with
    | .ok byte m => .read purpose address :: (next byte).accesses m
    | .error _ _ => []
  | .write address byte next, m =>
    match Exec.write address byte m with
    | .ok _ m => .write address byte :: next.accesses m
    | .error _ _ => []

end Run

/-! ### Steps -/

/-- What instructions work on, as it stands. -/
def core : Program Core := .look .done

/-- Changes what instructions work on. -/
def modifyCore (f : Core → Core) : Program Unit := .change f (.done ())

def modifyRegs (f : Registers → Registers) : Program Unit :=
  modifyCore fun c => { c with regs := f c.regs }

/-- Changes what is known of the operand. -/
def modifyOperand (f : Operand → Operand) : Program Unit :=
  modifyCore fun c => { c with operand := f c.operand }

/-- Goes to an address. -/
def goto (address : UInt16) : Program Unit := modifyCore fun c => { c with pc := address }

def record (event : Cpu → Event) : Program Unit := .note event (.done ())

def readByte (address : UInt16) : Program UInt8 := .read .data address .done

def writeByte (address : UInt16) (byte : UInt8) : Program Unit := .write address byte (.done ())

/-- Reads two addresses, the low byte first. -/
def readPair (low high : UInt16) : Program UInt16 := do
  let l ← readByte low
  let h ← readByte high
  return wordOf h l

def readWord (address : UInt16) : Program UInt16 := readPair address (address + 1)

/-- Reads a word whose bytes stay on one page. -/
def readWordInPage (address : UInt16) : Program UInt16 :=
  readPair address (wordOf (highByte address) (lowByte address + 1))

/-- Reads the byte at the program counter and goes past it. -/
def fetch : Program UInt8 := do
  let c ← core
  let byte ← .read .code c.pc .done
  goto (c.pc + 1)
  return byte

def fetchWord : Program UInt16 := do
  let l ← fetch
  let h ← fetch
  return wordOf h l

/-! ### The stack -/

/-- Puts a byte on the stack. -/
def push (byte : UInt8) : Program Unit := do
  let c ← core
  writeByte c.stackAddress byte
  modifyRegs fun r => { r with sp := r.sp - 1 }

def pop : Program UInt8 := do
  modifyRegs fun r => { r with sp := r.sp + 1 }
  let c ← core
  readByte c.stackAddress

/-- Puts a word on the stack, so that its low byte comes off first. -/
def pushWord (w : UInt16) : Program Unit := do
  push (highByte w)
  push (lowByte w)

def popWord : Program UInt16 := do
  let l ← pop
  let h ← pop
  return wordOf h l

end Program

end Famicom
