import Famicom.Processor.Mnemonic

/-!
# The opcode matrix

What every opcode stands for: an instruction, the mode of its operand and the cycles that it takes
at least.  The matrix has a row for each upper digit of the opcode and a column for each lower
one; all 256 places are filled, and 105 of them are undocumented.
-/

namespace Famicom.Processor

/-- What an opcode stands for. -/
structure Encoding where
  mnemonic : Mnemonic
  mode : Mode
  /-- the cycles taken when nothing adds to them -/
  cycles : Nat
  documented : Bool
  deriving DecidableEq, Repr, Inhabited

namespace Encoding

open Mnemonic Mode

/-- An opcode of the manual. -/
def listed (mnemonic : Mnemonic) (mode : Mode) (cycles : Nat) : Encoding :=
  ⟨mnemonic, mode, cycles, true⟩

/-- An opcode that the manual does not list. -/
def unlisted (mnemonic : Mnemonic) (mode : Mode) (cycles : Nat) : Encoding :=
  ⟨mnemonic, mode, cycles, false⟩

/-- The opcodes whose upper digit is `0`; a row for each further digit follows. -/
def row0 : Vector Encoding 16 := #v[
  listed brk implied 2,
  listed ora indexedIndirect 6,
  unlisted jam implied 2,
  unlisted slo indexedIndirect 8,
  unlisted nop zeroPage 3,
  listed ora zeroPage 3,
  listed asl zeroPage 5,
  unlisted slo zeroPage 5,
  listed php implied 3,
  listed ora immediate 2,
  listed asl accumulator 2,
  unlisted anc immediate 2,
  unlisted nop absolute 4,
  listed ora absolute 4,
  listed asl absolute 6,
  unlisted slo absolute 6]

def row1 : Vector Encoding 16 := #v[
  listed bpl relative 2,
  listed ora indirectIndexed 5,
  unlisted jam implied 2,
  unlisted slo indirectIndexed 8,
  unlisted nop zeroPageX 4,
  listed ora zeroPageX 4,
  listed asl zeroPageX 6,
  unlisted slo zeroPageX 6,
  listed clc implied 2,
  listed ora absoluteY 4,
  unlisted nop implied 2,
  unlisted slo absoluteY 7,
  unlisted nop absoluteX 4,
  listed ora absoluteX 4,
  listed asl absoluteX 7,
  unlisted slo absoluteX 7]

def row2 : Vector Encoding 16 := #v[
  listed jsr absolute 6,
  listed and indexedIndirect 6,
  unlisted jam implied 2,
  unlisted rla indexedIndirect 8,
  listed bit zeroPage 3,
  listed and zeroPage 3,
  listed rol zeroPage 5,
  unlisted rla zeroPage 5,
  listed plp implied 4,
  listed and immediate 2,
  listed rol accumulator 2,
  unlisted anc immediate 2,
  listed bit absolute 4,
  listed and absolute 4,
  listed rol absolute 6,
  unlisted rla absolute 6]

def row3 : Vector Encoding 16 := #v[
  listed bmi relative 2,
  listed and indirectIndexed 5,
  unlisted jam implied 2,
  unlisted rla indirectIndexed 8,
  unlisted nop zeroPageX 4,
  listed and zeroPageX 4,
  listed rol zeroPageX 6,
  unlisted rla zeroPageX 6,
  listed sec implied 2,
  listed and absoluteY 4,
  unlisted nop implied 2,
  unlisted rla absoluteY 7,
  unlisted nop absoluteX 4,
  listed and absoluteX 4,
  listed rol absoluteX 7,
  unlisted rla absoluteX 7]

def row4 : Vector Encoding 16 := #v[
  listed rti implied 6,
  listed eor indexedIndirect 6,
  unlisted jam implied 2,
  unlisted sre indexedIndirect 8,
  unlisted nop zeroPage 3,
  listed eor zeroPage 3,
  listed lsr zeroPage 5,
  unlisted sre zeroPage 5,
  listed pha implied 3,
  listed eor immediate 2,
  listed lsr accumulator 2,
  unlisted alr immediate 2,
  listed jmp absolute 3,
  listed eor absolute 4,
  listed lsr absolute 6,
  unlisted sre absolute 6]

def row5 : Vector Encoding 16 := #v[
  listed bvc relative 2,
  listed eor indirectIndexed 5,
  unlisted jam implied 2,
  unlisted sre indirectIndexed 8,
  unlisted nop zeroPageX 4,
  listed eor zeroPageX 4,
  listed lsr zeroPageX 6,
  unlisted sre zeroPageX 6,
  listed cli implied 2,
  listed eor absoluteY 4,
  unlisted nop implied 2,
  unlisted sre absoluteY 7,
  unlisted nop absoluteX 4,
  listed eor absoluteX 4,
  listed lsr absoluteX 7,
  unlisted sre absoluteX 7]

def row6 : Vector Encoding 16 := #v[
  listed rts implied 6,
  listed adc indexedIndirect 6,
  unlisted jam implied 2,
  unlisted rra indexedIndirect 8,
  unlisted nop zeroPage 3,
  listed adc zeroPage 3,
  listed ror zeroPage 5,
  unlisted rra zeroPage 5,
  listed pla implied 4,
  listed adc immediate 2,
  listed ror accumulator 2,
  unlisted arr immediate 2,
  listed jmp indirect 5,
  listed adc absolute 4,
  listed ror absolute 6,
  unlisted rra absolute 6]

def row7 : Vector Encoding 16 := #v[
  listed bvs relative 2,
  listed adc indirectIndexed 5,
  unlisted jam implied 2,
  unlisted rra indirectIndexed 8,
  unlisted nop zeroPageX 4,
  listed adc zeroPageX 4,
  listed ror zeroPageX 6,
  unlisted rra zeroPageX 6,
  listed sei implied 2,
  listed adc absoluteY 4,
  unlisted nop implied 2,
  unlisted rra absoluteY 7,
  unlisted nop absoluteX 4,
  listed adc absoluteX 4,
  listed ror absoluteX 7,
  unlisted rra absoluteX 7]

def row8 : Vector Encoding 16 := #v[
  unlisted nop immediate 2,
  listed sta indexedIndirect 6,
  unlisted nop immediate 2,
  unlisted sax indexedIndirect 6,
  listed sty zeroPage 3,
  listed sta zeroPage 3,
  listed stx zeroPage 3,
  unlisted sax zeroPage 3,
  listed dey implied 2,
  unlisted nop immediate 2,
  listed txa implied 2,
  unlisted ane immediate 2,
  listed sty absolute 4,
  listed sta absolute 4,
  listed stx absolute 4,
  unlisted sax absolute 4]

def row9 : Vector Encoding 16 := #v[
  listed bcc relative 2,
  listed sta indirectIndexed 6,
  unlisted jam implied 2,
  unlisted sha indirectIndexed 6,
  listed sty zeroPageX 4,
  listed sta zeroPageX 4,
  listed stx zeroPageY 4,
  unlisted sax zeroPageY 4,
  listed tya implied 2,
  listed sta absoluteY 5,
  listed txs implied 2,
  unlisted tas absoluteY 5,
  unlisted shy absoluteX 5,
  listed sta absoluteX 5,
  unlisted shx absoluteY 5,
  unlisted sha absoluteY 5]

def rowA : Vector Encoding 16 := #v[
  listed ldy immediate 2,
  listed lda indexedIndirect 6,
  listed ldx immediate 2,
  unlisted lax indexedIndirect 6,
  listed ldy zeroPage 3,
  listed lda zeroPage 3,
  listed ldx zeroPage 3,
  unlisted lax zeroPage 3,
  listed tay implied 2,
  listed lda immediate 2,
  listed tax implied 2,
  unlisted lax immediate 2,
  listed ldy absolute 4,
  listed lda absolute 4,
  listed ldx absolute 4,
  unlisted lax absolute 4]

def rowB : Vector Encoding 16 := #v[
  listed bcs relative 2,
  listed lda indirectIndexed 5,
  unlisted jam implied 2,
  unlisted lax indirectIndexed 5,
  listed ldy zeroPageX 4,
  listed lda zeroPageX 4,
  listed ldx zeroPageY 4,
  unlisted lax zeroPageY 4,
  listed clv implied 2,
  listed lda absoluteY 4,
  listed tsx implied 2,
  unlisted las absoluteY 4,
  listed ldy absoluteX 4,
  listed lda absoluteX 4,
  listed ldx absoluteY 4,
  unlisted lax absoluteY 4]

def rowC : Vector Encoding 16 := #v[
  listed cpy immediate 2,
  listed cmp indexedIndirect 6,
  unlisted nop immediate 2,
  unlisted dcp indexedIndirect 8,
  listed cpy zeroPage 3,
  listed cmp zeroPage 3,
  listed dec zeroPage 5,
  unlisted dcp zeroPage 5,
  listed iny implied 2,
  listed cmp immediate 2,
  listed dex implied 2,
  unlisted sbx immediate 2,
  listed cpy absolute 4,
  listed cmp absolute 4,
  listed dec absolute 6,
  unlisted dcp absolute 6]

def rowD : Vector Encoding 16 := #v[
  listed bne relative 2,
  listed cmp indirectIndexed 5,
  unlisted jam implied 2,
  unlisted dcp indirectIndexed 8,
  unlisted nop zeroPageX 4,
  listed cmp zeroPageX 4,
  listed dec zeroPageX 6,
  unlisted dcp zeroPageX 6,
  listed cld implied 2,
  listed cmp absoluteY 4,
  unlisted nop implied 2,
  unlisted dcp absoluteY 7,
  unlisted nop absoluteX 4,
  listed cmp absoluteX 4,
  listed dec absoluteX 7,
  unlisted dcp absoluteX 7]

def rowE : Vector Encoding 16 := #v[
  listed cpx immediate 2,
  listed sbc indexedIndirect 6,
  unlisted nop immediate 2,
  unlisted isc indexedIndirect 8,
  listed cpx zeroPage 3,
  listed sbc zeroPage 3,
  listed inc zeroPage 5,
  unlisted isc zeroPage 5,
  listed inx implied 2,
  listed sbc immediate 2,
  listed nop implied 2,
  unlisted usbc immediate 2,
  listed cpx absolute 4,
  listed sbc absolute 4,
  listed inc absolute 6,
  unlisted isc absolute 6]

def rowF : Vector Encoding 16 := #v[
  listed beq relative 2,
  listed sbc indirectIndexed 5,
  unlisted jam implied 2,
  unlisted isc indirectIndexed 8,
  unlisted nop zeroPageX 4,
  listed sbc zeroPageX 4,
  listed inc zeroPageX 6,
  unlisted isc zeroPageX 6,
  listed sed implied 2,
  listed sbc absoluteY 4,
  unlisted nop implied 2,
  unlisted isc absoluteY 7,
  unlisted nop absoluteX 4,
  listed sbc absoluteX 4,
  listed inc absoluteX 7,
  unlisted isc absoluteX 7]

/-- All rows in order. -/
def matrix : Vector (Vector Encoding 16) 16 :=
  #v[row0, row1, row2, row3, row4, row5, row6, row7,
    row8, row9, rowA, rowB, rowC, rowD, rowE, rowF]

/-- The meaning of an opcode. -/
def decode (opcode : UInt8) : Encoding :=
  have h : opcode.toNat < 256 := opcode.toNat_lt
  matrix[opcode.toNat / 16][opcode.toNat % 16]

end Encoding

end Famicom.Processor
