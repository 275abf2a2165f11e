import Famicom.Cartridge.Image
import Famicom.GameGenie
import Famicom.Processor.Cpu
import Famicom.Processor.Encoding
import Famicom.Text

/-!
# The journal

What happens in a console and is worth a line: events are kept as data, with a severity, the part of
the console that they come from, and a wording (`Event.message`).  A journal has a level and keeps
those events that are at least as severe.
-/

namespace Famicom

open Processor (Cpu Encoding)

/-- How much a journal keeps. -/
inductive Level where
  | off | error | warn | info | debug | trace
  deriving DecidableEq, Repr, Inhabited

/-- The place of a level among the levels: the higher, the more is kept. -/
def Level.rank : Level → Nat
  | off => 0
  | error => 1
  | warn => 2
  | info => 3
  | debug => 4
  | trace => 5

/-- The part of a console that an event comes from. -/
inductive Origin where
  | cartridge | board | processor | execution | bus | snapshot | synchronisation
  deriving DecidableEq, Repr

/-- Something worth a line. -/
inductive Event where
  | imageRead (header : Header)
  /-- a board had something to say about a write -/
  | remark (r : Remark)
  | resetTo (pc : UInt16)
  | halted (halt : Halt)
  /-- an undocumented opcode was met where none may run -/
  | undocumented (opcode : UInt8)
  /-- an instruction is about to run, with the processor as it is after its opcode was fetched -/
  | executing (cpu : Cpu) (opcode : UInt8)
  /-- an instruction was taken back because it touched the picture too early -/
  | rolledBack (pc : UInt16) (cycle : UInt32)
  /-- the picture was brought up to date -/
  | caughtUp (cycle : UInt32) (elapsed line tick : Nat)
  | codeArmed (code : String) (patch : GameGenie)
  | codeCleared
  | saved (pc : UInt16)
  | restored (pc : UInt16)

namespace Event

def level : Event → Level
  | halted _ | undocumented _ => .error
  | remark _ => .warn
  | imageRead _ | resetTo _ | codeArmed .. | codeCleared => .info
  | saved _ | restored _ => .debug
  | executing .. | rolledBack .. | caughtUp .. => .trace

def origin : Event → Origin
  | imageRead _ => .cartridge
  | remark _ => .board
  | resetTo _ | halted _ | undocumented _ => .processor
  | executing .. => .execution
  | rolledBack .. | caughtUp .. => .synchronisation
  | codeArmed .. | codeCleared => .bus
  | saved _ | restored _ => .snapshot

/-- An optional byte in words. -/
def optionText : Option UInt8 → String
  | none => "None"
  | some b => s!"Some({b.toNat})"

/-- The line that shows an instruction about to run. -/
def executingText (cpu : Cpu) (opcode : UInt8) : String :=
  let e := Encoding.decode opcode
  let r := cpu.regs
  Text.wordHex (cpu.pc - 1) ++ " " ++ e.mnemonic.name ++ " " ++ e.mode.name ++ " " ++
    Text.byteHex opcode ++ "  A:" ++ Text.byteHex r.a ++ " X:" ++ Text.byteHex r.x ++ " Y:" ++
    Text.byteHex r.y ++ " P:" ++ Text.byteHex r.p.toByte ++ " SP:" ++ Text.byteHex r.sp ++
    " CYC:" ++ toString cpu.totalCycles

def message : Event → String
  | imageRead h =>
    s!"PRG-ROM banks:{h.programBanks} CHR-ROM banks:{h.patternBanks} " ++ h.layout.name ++
      s!" Trainer?:{h.trainer} Mapper:{h.mapper}"
  | remark (.bankOutOfRange bank banks) =>
    s!"UxROM bank {bank} out of range ({banks} banks), clamping"
  | resetTo pc => "Reset vector: " ++ Text.wordHex pc
  | halted h => "CPU halted at " ++ Text.wordHex h.pc ++ s!" after {h.cycles} cycles"
  | undocumented opcode =>
    "Illegal opcode " ++ Text.byteHex opcode ++ " with illegal opcodes disabled"
  | executing cpu opcode => executingText cpu opcode
  | rolledBack pc cycle => "rolled back " ++ Text.wordHex pc ++ s!" at cycle {cycle.toNat}"
  | caughtUp cycle elapsed line tick =>
    s!"PPU caught up: cycle {cycle.toNat} tick {elapsed} ({line}, {tick})"
  | codeArmed code g =>
    "Game Genie " ++ code ++ " armed: " ++ Text.wordHex g.address ++ " = " ++
      Text.byteHex g.data ++ " (compare " ++ optionText g.compare ++ ")"
  | codeCleared => "Game Genie cleared"
  | saved pc => "Snapshot saved at " ++ Text.wordHex pc
  | restored pc => "Snapshot restored at " ++ Text.wordHex pc

end Event

/-- The events kept so far, and what is kept. -/
structure Journal where
  level : Level := .off
  events : Array Event := #[]

namespace Journal

/-- Events of this level are kept. -/
def keeps (j : Journal) (l : Level) : Bool := l.rank ≤ j.level.rank

/-- Keeps an event, if it is severe enough. -/
def record (j : Journal) (e : Event) : Journal :=
  if j.keeps e.level then { j with events := j.events.push e } else j

/-- Changes what is kept from now on. -/
def setLevel (j : Journal) (l : Level) : Journal := { j with level := l }

def clear (j : Journal) : Journal := { j with events := #[] }

end Journal

end Famicom
