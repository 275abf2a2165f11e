import Famicom.Word

/-!
# Flags, registers and arithmetic

The status register holds eight flags, which are written to memory as one byte.  The register itself
has no use for two of them: `brk` and `reserved` exist in the copies on the stack, where `brk` tells
an instruction from an interrupt.

Everything that instructions compute with the byte registers is a pure function of them and of an
operand byte; memory comes in elsewhere.  Sums are formed in `Nat` and cut down to a byte, so the
carry is the part that was cut off.
-/

namespace Famicom.Processor

/-- The flags, the highest bit first. -/
structure Status where
  negative : Bool
  overflow : Bool
  reserved : Bool
  brk : Bool
  decimal : Bool
  interruptDisable : Bool
  zero : Bool
  carry : Bool
  deriving DecidableEq, Repr, Inhabited

namespace Status

def ofByte (b : UInt8) : Status :=
  ⟨bit b 7, bit b 6, bit b 5, bit b 4, bit b 3, bit b 2, bit b 1, bit b 0⟩

def toByte (p : Status) : UInt8 :=
  byteOf p.negative p.overflow p.reserved p.brk p.decimal p.interruptDisable p.zero p.carry

@[simp] theorem toByte_ofByte (b : UInt8) : (ofByte b).toByte = b := byteOf_bit b

@[simp] theorem ofByte_toByte (p : Status) : ofByte p.toByte = p := by
  obtain ⟨h7, h6, h5, h4, h3, h2, h1, h0⟩ := bit_byteOf p.negative p.overflow p.reserved p.brk
    p.decimal p.interruptDisable p.zero p.carry
  simp [ofByte, toByte, h7, h6, h5, h4, h3, h2, h1, h0]

/-- The flags after power-on: interrupts disabled, nothing else. -/
def initial : Status := ofByte 0x24

/-- Zero and negative describe a result. -/
def describe (p : Status) (result : UInt8) : Status :=
  { p with zero := result == 0, negative := bit result 7 }

/-- The copy put on the stack, marked when an instruction asks for it. -/
def pushed (p : Status) (byInstruction : Bool) : UInt8 :=
  { p with reserved := true, brk := byInstruction }.toByte

/-- The flags taken back from the stack; the two that only copies have are set right again. -/
def pulled (b : UInt8) : Status := { ofByte b with reserved := true, brk := false }

end Status

/-- The byte registers: accumulator, two index registers, stack pointer, status. -/
structure Registers where
  a : UInt8 := 0
  x : UInt8 := 0
  y : UInt8 := 0
  sp : UInt8 := 0xFD
  p : Status := .initial
  deriving DecidableEq, Repr, Inhabited

namespace Registers

def setA (r : Registers) (v : UInt8) : Registers := { r with a := v, p := r.p.describe v }

def setX (r : Registers) (v : UInt8) : Registers := { r with x := v, p := r.p.describe v }

def setY (r : Registers) (v : UInt8) : Registers := { r with y := v, p := r.p.describe v }

/-- Lets zero and negative describe a result. -/
def describe (r : Registers) (v : UInt8) : Registers := { r with p := r.p.describe v }

def setCarry (r : Registers) (c : Bool) : Registers := { r with p := { r.p with carry := c } }

/-- Adds a byte and the carry to the accumulator. -/
def add (r : Registers) (m : UInt8) : Registers :=
  let sum := r.a.toNat + m.toNat + r.p.carry.toNat
  let result := UInt8.ofNat sum
  { r with p := { r.p with
             carry := decide (256 ≤ sum)
             overflow := bit ((r.a ^^^ result) &&& (m ^^^ result)) 7 } }.setA result

/-- Takes a byte and the missing carry from the accumulator: adds the inverted byte. -/
def subtract (r : Registers) (m : UInt8) : Registers := r.add (~~~m)

/-- Compares a register with a byte; only flags change. -/
def compare (r : Registers) (register m : UInt8) : Registers :=
  (r.setCarry (decide (m ≤ register))).describe (register - m)

/-- A byte moved up by one bit, the carry coming in below. -/
def rotatedLeft (r : Registers) (m : UInt8) : UInt8 := m <<< 1 ||| atBit r.p.carry 0

/-- A byte moved down by one bit, the carry coming in above. -/
def rotatedRight (r : Registers) (m : UInt8) : UInt8 := m >>> 1 ||| atBit r.p.carry 7

/-- After a move upwards: the bit that fell out is the carry, the flags describe the result. -/
def movedLeft (r : Registers) (old new : UInt8) : Registers := (r.setCarry (bit old 7)).describe new

def movedRight (r : Registers) (old new : UInt8) : Registers :=
  (r.setCarry (bit old 0)).describe new

/-- Tests a byte against the accumulator; its two top bits go to the flags. -/
def bitTest (r : Registers) (m : UInt8) : Registers :=
  { r with p := { r.p with zero := r.a &&& m == 0, overflow := bit m 6, negative := bit m 7 } }

/-- The accumulator masked and moved down by one bit. -/
def maskAndShift (r : Registers) (m : UInt8) : Registers :=
  let masked := r.a &&& m
  (r.setCarry (bit masked 0)).setA (masked >>> 1)

/-- The accumulator masked and rotated down; carry and overflow come from the middle bits. -/
def maskAndRotate (r : Registers) (m : UInt8) : Registers :=
  let r := r.setA (r.rotatedRight (r.a &&& m))
  { r with p := { r.p with carry := bit r.a 6, overflow := bit r.a 6 != bit r.a 5 } }

/-- Accumulator and first index register masked together, less a byte, into the index register. -/
def maskedDifference (r : Registers) (m : UInt8) : Registers :=
  let masked := r.a &&& r.x
  (r.setCarry (decide (m ≤ masked))).setX (masked - m)

/-- What the accumulator lets through when its unstable bits are on the bus. -/
def unstable (r : Registers) (m : UInt8) : UInt8 := (r.a ||| 0xEE) &&& m

end Registers

end Famicom.Processor
