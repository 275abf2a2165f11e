/-!
# Mnemonics and addressing modes

The instructions of the processor by their three-letter names, the undocumented ones included, and
the ways in which an instruction names its operand.
-/

namespace Famicom.Processor

/-- The ways of naming an operand. -/
inductive Mode where
  | implied
  | accumulator
  /-- the byte after the opcode -/
  | immediate
  /-- an address on page zero -/
  | zeroPage
  /-- the same, moved by `x` within the page -/
  | zeroPageX
  /-- the same, moved by `y` within the page -/
  | zeroPageY
  /-- a signed distance from the next instruction -/
  | relative
  | absolute
  /-- the same, moved by `x` -/
  | absoluteX
  /-- the same, moved by `y` -/
  | absoluteY
  /-- the address of an address -/
  | indirect
  /-- an address on page zero, moved by `x`, at which an address lies -/
  | indexedIndirect
  /-- an address on page zero at which an address lies that is moved by `y` -/
  | indirectIndexed
  deriving DecidableEq, Repr, Inhabited

def Mode.name : Mode → String
  | .implied => "IMP"
  | .accumulator => "ACC"
  | .immediate => "IMM"
  | .zeroPage => "ZPG"
  | .zeroPageX => "ZPX"
  | .zeroPageY => "ZPY"
  | .relative => "REL"
  | .absolute => "ABS"
  | .absoluteX => "ABX"
  | .absoluteY => "ABY"
  | .indirect => "IND"
  | .indexedIndirect => "INX"
  | .indirectIndexed => "INY"

/-- The bytes that follow the opcode. -/
def Mode.operandBytes : Mode → Nat
  | .implied | .accumulator => 0
  | .absolute | .absoluteX | .absoluteY | .indirect => 2
  | _ => 1

/-- The modes that name a cell of memory. -/
def Mode.addressesMemory : Mode → Bool
  | .implied | .accumulator | .immediate => false
  | _ => true

/-- The instructions: those of the manual, and after them those that it does not list. -/
inductive Mnemonic where
  | adc | and | asl | bcc | bcs | beq | bit | bmi | bne | bpl | brk | bvc | bvs | clc | cld
  | cli | clv | cmp | cpx | cpy | dec | dex | dey | eor | inc | inx | iny | jmp | jsr | lda
  | ldx | ldy | lsr | nop | ora | pha | php | pla | plp | rol | ror | rti | rts | sbc | sec
  | sed | sei | sta | stx | sty | tax | tay | tsx | txa | txs | tya
  | alr | anc | ane | arr | dcp | isc | las | lax | rla | rra | sax | sbx | sha | shx | shy
  | slo | sre | tas | usbc | jam
  deriving DecidableEq, Repr, Inhabited

def Mnemonic.name : Mnemonic → String
  | .adc => "ADC"
  | .and => "AND"
  | .asl => "ASL"
  | .bcc => "BCC"
  | .bcs => "BCS"
  | .beq => "BEQ"
  | .bit => "BIT"
  | .bmi => "BMI"
  | .bne => "BNE"
  | .bpl => "BPL"
  | .brk => "BRK"
  | .bvc => "BVC"
  | .bvs => "BVS"
  | .clc => "CLC"
  | .cld => "CLD"
  | .cli => "CLI"
  | .clv => "CLV"
  | .cmp => "CMP"
  | .cpx => "CPX"
  | .cpy => "CPY"
  | .dec => "DEC"
  | .dex => "DEX"
  | .dey => "DEY"
  | .eor => "EOR"
  | .inc => "INC"
  | .inx => "INX"
  | .iny => "INY"
  | .jmp => "JMP"
  | .jsr => "JSR"
  | .lda => "LDA"
  | .ldx => "LDX"
  | .ldy => "LDY"
  | .lsr => "LSR"
  | .nop => "NOP"
  | .ora => "ORA"
  | .pha => "PHA"
  | .php => "PHP"
  | .pla => "PLA"
  | .plp => "PLP"
  | .rol => "ROL"
  | .ror => "ROR"
  | .rti => "RTI"
  | .rts => "RTS"
  | .sbc => "SBC"
  | .sec => "SEC"
  | .sed => "SED"
  | .sei => "SEI"
  | .sta => "STA"
  | .stx => "STX"
  | .sty => "STY"
  | .tax => "TAX"
  | .tay => "TAY"
  | .tsx => "TSX"
  | .txa => "TXA"
  | .txs => "TXS"
  | .tya => "TYA"
  | .alr => "ALR"
  | .anc => "ANC"
  | .ane => "ANE"
  | .arr => "ARR"
  | .dcp => "DCP"
  | .isc => "ISC"
  | .las => "LAS"
  | .lax => "LAX"
  | .rla => "RLA"
  | .rra => "RRA"
  | .sax => "SAX"
  | .sbx => "SBX"
  | .sha => "SHA"
  | .shx => "SHX"
  | .shy => "SHY"
  | .slo => "SLO"
  | .sre => "SRE"
  | .tas => "TAS"
  | .usbc => "USBC"
  | .jam => "JAM"

end Famicom.Processor
