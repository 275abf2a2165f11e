import Famicom.Processor.Mnemonic
import Famicom.Processor.Registers

/-!
# The state of the processor

Instructions work on the registers, the program counter and what is known of the operand (`Core`).
Beside them the processor remembers how long it has been running and where it stands with the
picture: whether the picture may lag behind (`Sync.awaiting`), and whether the instruction in hand
has already waited for it (`Sync.retrying`).
-/

namespace Famicom.Processor

/-- How the last operand was found. -/
structure Operand where
  mode : Mode := .implied
  address : UInt16 := 0
  /-- the operand itself, for the modes without an address -/
  data : UInt8 := 0
  /-- the address before an index was added -/
  base : UInt16 := 0
  pageCrossed : Bool := false
  deriving DecidableEq, Repr, Inhabited

namespace Operand

/-- An operand at an address. -/
def setAddress (o : Operand) (address : UInt16) : Operand :=
  { o with address := address, base := address, pageCrossed := false }

/-- An operand at an address that an index has moved. -/
def setIndexed (o : Operand) (base : UInt16) (index : UInt8) : Operand :=
  let address := base + index.toUInt16
  { o with address := address, base := base, pageCrossed := !samePage address base }

/-- An operand at a signed distance from the next instruction. -/
def setRelative (o : Operand) (next : UInt16) (distance : UInt8) : Operand :=
  let address := next + signExtend distance
  { o with address := address, base := address, pageCrossed := !samePage next address }

/-- An operand at hand. -/
def setData (o : Operand) (data : UInt8) : Operand := { o with data := data, pageCrossed := false }

end Operand

/-- Where processor and picture stand with each other. -/
structure Sync where
  /-- the picture may lag behind the processor -/
  awaiting : Bool := false
  /-- the instruction in hand has waited for the picture -/
  retrying : Bool := false
  deriving DecidableEq, Repr, Inhabited

/-- An access to the picture has to wait. -/
def Sync.mustWait (s : Sync) : Bool := s.awaiting && !s.retrying

/-- The part of the processor that instructions work on. -/
structure Core where
  regs : Registers := {}
  pc : UInt16 := 0
  operand : Operand := {}
  deriving DecidableEq, Repr, Inhabited

/-- The stack's page. -/
def Core.stackAddress (c : Core) : UInt16 := 0x100 ||| c.regs.sp.toUInt16

@[simp] theorem Core.highByte_stackAddress (c : Core) : highByte c.stackAddress = 1 :=
  highByte_wordOf 1 c.regs.sp

/-- The processor. -/
structure Cpu extends Core where
  /-- the cycles of this frame, which wrap around if no frame is ever begun -/
  cycles : UInt32 := 0
  /-- the cycles since the last reset -/
  totalCycles : Nat := 0
  sync : Sync := {}
  halted : Bool := false
  undocumented : Bool := true
  deriving DecidableEq, Repr, Inhabited

namespace Cpu

/-- The addresses at which the processor finds where to go. -/
def nmiVector : UInt16 := 0xFFFA

def resetVector : UInt16 := 0xFFFC

def irqVector : UInt16 := 0xFFFE

def interruptCycles : Nat := 7

/-- Starts counting the cycles of a new frame. -/
def beginFrame (c : Cpu) : Cpu := { c with cycles := 0 }

/-- Says whether the picture may lag behind. -/
def setAwaiting (c : Cpu) (awaiting : Bool) : Cpu :=
  { c with sync := { c.sync with awaiting := awaiting } }

/-- The processor after a reset that sent it to `pc`; what it may run is no business of a reset. -/
def afterReset (c : Cpu) (pc : UInt16) : Cpu :=
  { pc := pc, totalCycles := interruptCycles, undocumented := c.undocumented }

end Cpu

end Famicom.Processor
