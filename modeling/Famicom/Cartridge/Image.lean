import Famicom.Cartridge.Board
import Famicom.Error
import Famicom.Word

/-!
# Cartridge images

A file opens with a header of sixteen bytes: a signature, the numbers of program and pattern banks,
and two bytes of flags that give the board's number, its nametable layout and whether a trainer of
512 bytes follows.  Then come the program banks and the pattern banks.  `Image.parse` checks in that
order; what follows the pattern banks is ignored.
-/

namespace Famicom

/-- What a header announces. -/
structure Header where
  programBanks : Nat
  programBanks_pos : 0 < programBanks
  patternBanks : Nat
  layout : Layout
  trainer : Bool
  mapper : Nat
  deriving DecidableEq, Repr

namespace Header

def size : Nat := 16

/-- The four bytes that open every image. -/
def signature : List UInt8 := [0x4E, 0x45, 0x53, 0x1A]

/-- The announcements in bytes four to seven. -/
def ofBytes (programBanks patternBanks flags6 flags7 : UInt8) (h : 0 < programBanks.toNat) :
    Header where
  programBanks := programBanks.toNat
  programBanks_pos := h
  patternBanks := patternBanks.toNat
  layout := if bit flags6 3 then .fourScreen else if bit flags6 0 then .vertical else .horizontal
  trainer := bit flags6 2
  mapper := ((flags7 &&& (0xF0 : UInt8)) ||| (flags6 >>> (4 : UInt8))).toNat

/-- Where the program banks start. -/
def programStart (h : Header) : Nat := size + if h.trainer then 512 else 0

def patternStart (h : Header) : Nat := h.programStart + programBankSize * h.programBanks

def dataEnd (h : Header) : Nat := h.patternStart + patternBankSize * h.patternBanks

/-- Reads a header; the size is checked before the signature, and that before the banks. -/
def parse (file : Array UInt8) : Except Error Header :=
  if h : file.size < size then .error (.invalidImage (.shortHeader file.size))
  else
    have h : 16 ≤ file.size := Nat.le_of_not_lt h
    if [file[0], file[1], file[2], file[3]] ≠ signature then .error (.invalidImage .badSignature)
    else if pos : 0 < file[4].toNat then .ok (ofBytes file[4] file[5] file[6] file[7] pos)
    else .error (.invalidImage .noProgram)

end Header

/-- A cartridge read from a file, with the header it came with. -/
structure Image where
  header : Header
  board : Board

namespace Image

/-- The `size` bytes of a file from `start` on. -/
def slice (file : Array UInt8) (start size : Nat) (h : start + size ≤ file.size) :
    Vector UInt8 size :=
  ⟨file.extract start (start + size), by simp; omega⟩

def program (header : Header) (file : Array UInt8) (h : header.dataEnd ≤ file.size) :
    ProgramRom where
  banks := header.programBanks
  banks_pos := header.programBanks_pos
  bytes := slice file header.programStart _
    (by unfold Header.dataEnd Header.patternStart at h; omega)

/-- The pattern chip in a file; without pattern banks the board carries one of writable memory. -/
def pattern (header : Header) (file : Array UInt8) (h : header.dataEnd ≤ file.size) : PatternChip :=
  if pos : 0 < header.patternBanks then
    { banks := header.patternBanks, banks_pos := pos, writable := false
      bytes := slice file header.patternStart _ (by unfold Header.dataEnd at h; omega) }
  else { banks := 1, banks_pos := by decide, writable := true, bytes := .replicate _ 0 }

/-- The board with a number, if it is known. -/
def board? (header : Header) (program : ProgramRom) (pattern : PatternChip) : Option Board :=
  match header.mapper with
  | 0 => some (.nrom { program, pattern, ram := .replicate _ 0, layout := header.layout })
  | 2 => some (.uxrom { program, pattern, bank := ⟨0, program.banks_pos⟩
                        layout := header.layout })
  | _ => none

def parse (file : Array UInt8) : Except Error Image := do
  let header ← Header.parse file
  if h : header.dataEnd ≤ file.size then
    match board? header (program header file h) (pattern header file h) with
    | some board => .ok { header, board }
    | none => .error (.unsupportedMapper header.mapper)
  else
    .error (.invalidImage (.truncated (header.dataEnd - header.programStart)
      (file.size - header.programStart)))

end Image

end Famicom
