import Famicom.Text

/-!
# What can go wrong

The causes for which an operation is refused, and the wording of each (`Error.message`).
-/

namespace Famicom

/-- Where and when the processor stopped for good. -/
structure Halt where
  /-- the address of the instruction that stopped it -/
  pc : UInt16
  /-- the cycles run since the last reset -/
  cycles : Nat
  deriving DecidableEq, Repr

/-- Why a file is not a cartridge image. -/
inductive ImageDefect where
  /-- the file ends inside the header -/
  | shortHeader (size : Nat)
  /-- the four bytes of the signature are not there -/
  | badSignature
  /-- the header announces no program at all -/
  | noProgram
  /-- the file ends inside the program or the pattern data -/
  | truncated (expected found : Nat)
  deriving DecidableEq, Repr

/-- Why an operation was refused. -/
inductive Error where
  | halted (halt : Halt)
  | invalidImage (defect : ImageDefect)
  /-- the image names a board that is not known here -/
  | unsupportedMapper (number : Nat)
  | invalidCode (code : String)
  /-- nothing has been saved that could be restored -/
  | noSnapshot
  deriving DecidableEq, Repr

def ImageDefect.message : ImageDefect → String
  | .shortHeader size => s!"{size} bytes is too short for an iNES header"
  | .badSignature => "Not a iNES file"
  | .noProgram => "no PRG-ROM banks"
  | .truncated expected found => s!"expected {expected} bytes of PRG/CHR data, found {found}"

def Error.message : Error → String
  | .halted h => "CPU halted at 0x" ++ Text.wordHex h.pc ++ s!" after {h.cycles} cycles"
  | .invalidImage defect => "invalid iNES image: " ++ defect.message
  | .unsupportedMapper number => s!"unsupported iNES mapper {number}"
  | .invalidCode code => "invalid Game Genie code: " ++ Text.quoted code
  | .noSnapshot => "no snapshot has been saved"

end Famicom
