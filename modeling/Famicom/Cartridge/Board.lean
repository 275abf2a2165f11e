import Famicom.Cartridge.Interface

/-!
# Chips and boards

A program chip is read in banks of 16 KiB; a pattern chip holds one or more banks of 8 KiB and may
be writable.  Sizes are part of the types, so every access is within bounds.

Two boards are made of them.  The plain one (`Nrom`) has one or two program banks at `0x8000`, a
single one appearing twice, 8 KiB of work memory at `0x6000`, which keeps its contents over a reset,
one pattern chip and a fixed nametable layout.  On the bank-switching one (`Uxrom`) a write to any
address from `0x8000` on chooses the program bank there, the last bank stands fixed at `0xC000`, and
a reset chooses the first bank again.  A cartridge read from a file is one of the two (`Board`).
-/

namespace Famicom

/-! ### Chips -/

abbrev programBankSize : Nat := 0x4000

abbrev patternBankSize : Nat := 0x2000

/-- A read-only chip of one or more program banks. -/
structure ProgramRom where
  banks : Nat
  banks_pos : 0 < banks
  bytes : Vector UInt8 (programBankSize * banks)

namespace ProgramRom

/-- The byte at an offset, which repeats after the last bank. -/
def read (rom : ProgramRom) (offset : Nat) : UInt8 :=
  have := Nat.mod_lt offset (Nat.mul_pos (by decide : 0 < programBankSize) rom.banks_pos)
  rom.bytes[offset % (programBankSize * rom.banks)]

theorem offset_lt (rom : ProgramRom) (bank : Fin rom.banks) (offset : Fin programBankSize) :
    programBankSize * bank.val + offset.val < programBankSize * rom.banks :=
  calc programBankSize * bank.val + offset.val
      < programBankSize * bank.val + programBankSize := Nat.add_lt_add_left offset.isLt _
    _ = programBankSize * (bank.val + 1) := (Nat.mul_succ _ _).symm
    _ ≤ programBankSize * rom.banks := Nat.mul_le_mul_left _ bank.isLt

def bankOffset (address : UInt16) : Fin programBankSize :=
  ⟨address.toNat % programBankSize, Nat.mod_lt _ (by decide)⟩

/-- The byte at an address, taken in one bank. -/
def readBank (rom : ProgramRom) (bank : Fin rom.banks) (address : UInt16) : UInt8 :=
  have := rom.offset_lt bank (bankOffset address)
  rom.bytes[programBankSize * bank.val + (bankOffset address).val]

def lastBank (rom : ProgramRom) : Fin rom.banks := ⟨rom.banks - 1, by have := rom.banks_pos; omega⟩

/-- The bank with a number, or the last one if there is none. -/
def bankAt (rom : ProgramRom) (n : Nat) : Fin rom.banks :=
  if h : n < rom.banks then ⟨n, h⟩ else rom.lastBank

end ProgramRom

/-- A chip of one or more pattern banks. -/
structure PatternChip where
  banks : Nat
  banks_pos : 0 < banks
  bytes : Vector UInt8 (patternBankSize * banks)
  /-- whether the chip is memory that can be written -/
  writable : Bool

namespace PatternChip

theorem index_lt (chip : PatternChip) (address : UInt16) :
    address.toNat % (patternBankSize * chip.banks) < patternBankSize * chip.banks :=
  Nat.mod_lt _ (Nat.mul_pos (by decide) chip.banks_pos)

/-- The byte at an address, which repeats after the last bank. -/
def read (chip : PatternChip) (address : UInt16) : UInt8 :=
  have := chip.index_lt address
  chip.bytes[address.toNat % (patternBankSize * chip.banks)]

/-- Writes a byte, if the chip can be written and the address lies in the pattern tables. -/
def write (chip : PatternChip) (address : UInt16) (byte : UInt8) : PatternChip :=
  if chip.writable && address < 0x2000 then
    { chip with
      bytes := chip.bytes.set (address.toNat % (patternBankSize * chip.banks)) byte
        (chip.index_lt address) }
  else chip

end PatternChip

/-! ### The plain board -/

/-- A board without bank switching. -/
structure Nrom where
  program : ProgramRom
  pattern : PatternChip
  ram : Vector UInt8 0x2000
  layout : Layout

namespace Nrom

def isRam (address : UInt16) : Bool := 0x6000 ≤ address && address < 0x8000

/-- The work memory's cell at an address, which repeats every 8 KiB. -/
def ramIndex (address : UInt16) : Fin 0x2000 := ⟨address.toNat % 0x2000, Nat.mod_lt _ (by decide)⟩

def read (c : Nrom) (address : UInt16) : UInt8 :=
  if isRam address then c.ram[ramIndex address]
  else if 0x8000 ≤ address then c.program.read (address.toNat - 0x8000)
  else 0

/-- A write of the processor, which only the work memory takes. -/
def write (c : Nrom) (address : UInt16) (byte : UInt8) : Nrom :=
  if isRam address then { c with ram := c.ram.set (ramIndex address) byte } else c

instance : Cartridge Nrom where
  read := read
  write := write
  readPattern c address := if address < 0x2000 then c.pattern.read address else 0
  writePattern c address byte := { c with pattern := c.pattern.write address byte }
  layout c := c.layout
  reset c := c

end Nrom

/-! ### The bank-switching board -/

/-- A board with one switchable program bank. -/
structure Uxrom where
  program : ProgramRom
  pattern : PatternChip
  /-- the bank seen at `0x8000` -/
  bank : Fin program.banks
  layout : Layout

namespace Uxrom

def read (c : Uxrom) (address : UInt16) : UInt8 :=
  if 0xC000 ≤ address then c.program.readBank c.program.lastBank address
  else if 0x8000 ≤ address then c.program.readBank c.bank address
  else 0

/-- The number of the bank a written byte asks for. -/
def requested (byte : UInt8) : Nat := (byte &&& 0x0F).toNat

/-- A write of the processor, which chooses a bank. -/
def write (c : Uxrom) (address : UInt16) (byte : UInt8) : Uxrom :=
  if 0x8000 ≤ address then { c with bank := c.program.bankAt (requested byte) } else c

/-- A request beyond the last bank is worth a remark. -/
def remark (c : Uxrom) (address : UInt16) (byte : UInt8) : Option Remark :=
  if 0x8000 ≤ address ∧ c.program.banks ≤ requested byte then
    some (.bankOutOfRange (requested byte) c.program.banks)
  else none

instance : Cartridge Uxrom where
  read := read
  write := write
  remark := remark
  readPattern c address := c.pattern.read address
  writePattern c address byte := { c with pattern := c.pattern.write address byte }
  layout c := c.layout
  reset c := { c with bank := ⟨0, c.program.banks_pos⟩ }

end Uxrom

/-! ### A board of either kind -/

/-- A cartridge of either kind. -/
inductive Board where
  | nrom (c : Nrom)
  | uxrom (c : Uxrom)

namespace Board

/-- The number by which an image names the board. -/
def mapperNumber : Board → Nat
  | nrom _ => 0
  | uxrom _ => 2

instance : Cartridge Board where
  read
    | nrom c, address => Cartridge.read c address
    | uxrom c, address => Cartridge.read c address
  write
    | nrom c, address, byte => nrom (Cartridge.write c address byte)
    | uxrom c, address, byte => uxrom (Cartridge.write c address byte)
  remark
    | nrom c, address, byte => Cartridge.remark c address byte
    | uxrom c, address, byte => Cartridge.remark c address byte
  readPattern
    | nrom c, address => Cartridge.readPattern c address
    | uxrom c, address => Cartridge.readPattern c address
  writePattern
    | nrom c, address, byte => nrom (Cartridge.writePattern c address byte)
    | uxrom c, address, byte => uxrom (Cartridge.writePattern c address byte)
  layout
    | nrom c => Cartridge.layout c
    | uxrom c => Cartridge.layout c
  reset
    | nrom c => nrom (Cartridge.reset c)
    | uxrom c => uxrom (Cartridge.reset c)

/-- A plain board whose chips hold nothing but zeros. -/
def blank : Board := .nrom
  { program := ⟨1, Nat.one_pos, .replicate _ 0⟩
    pattern := ⟨1, Nat.one_pos, .replicate _ 0, false⟩
    ram := .replicate _ 0
    layout := .horizontal }

end Board

end Famicom
