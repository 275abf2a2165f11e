import Famicom.Processor.Mnemonic
import Famicom.Processor.Registers

/-!
# What instructions do

Every instruction belongs to one of a few families, which say how it meets memory: it reads its
operand, writes it, does both, or works on the stack or the program counter.  What remains is a pure
function of the registers.  `Mnemonic.action` is the whole instruction set in these terms.
-/

namespace Famicom.Processor

/-- The families of instructions. -/
inductive Action where
  /-- works on registers alone -/
  | compute (f : Registers → Registers)
  /-- reads the operand; `pays` tells whether crossing a page costs a cycle -/
  | load (pays : Bool) (f : Registers → UInt8 → Registers)
  /-- writes a byte that may depend on the page of the address before indexing, then settles -/
  | store (byte : Registers → UInt8 → UInt8) (settle : Registers → Registers)
  /-- reads the operand and writes it back changed; `settle` sees the old byte and the new one -/
  | modify (byte : Registers → UInt8 → UInt8) (settle : Registers → UInt8 → UInt8 → Registers)
  /-- goes elsewhere if the flags allow -/
  | branch (taken : Status → Bool)
  | jump
  /-- goes elsewhere and leaves the way back on the stack -/
  | call
  /-- goes back after a call -/
  | returnFromCall
  /-- goes back after an interrupt -/
  | returnFromInterrupt
  /-- enters the interrupt routine, unless interrupts are disabled -/
  | interrupt
  /-- puts a byte on the stack -/
  | push (byte : Registers → UInt8)
  /-- takes a byte from the stack -/
  | pull (f : Registers → UInt8 → Registers)
  /-- stops the processor for good -/
  | jam

/-- A store that changes no register. -/
def Action.plainStore (byte : Registers → UInt8) : Action := .store (fun r _ => byte r) id

/-- A change of flags. -/
def Action.flags (f : Status → Status) : Action := .compute fun r => { r with p := f r.p }

/-- What an instruction does with an operand of the given mode. -/
def Mnemonic.action (mode : Mode) : Mnemonic → Action
  | .adc => .load true .add
  | .and => .load true fun r m => r.setA (r.a &&& m)
  | .asl => .modify (fun _ m => m <<< 1) .movedLeft
  | .bcc => .branch fun p => !p.carry
  | .bcs => .branch fun p => p.carry
  | .beq => .branch fun p => p.zero
  | .bit => .load false .bitTest
  | .bmi => .branch fun p => p.negative
  | .bne => .branch fun p => !p.zero
  | .bpl => .branch fun p => !p.negative
  | .brk => .interrupt
  | .bvc => .branch fun p => !p.overflow
  | .bvs => .branch fun p => p.overflow
  | .clc => .flags fun p => { p with carry := false }
  | .cld => .flags fun p => { p with decimal := false }
  | .cli => .flags fun p => { p with interruptDisable := false }
  | .clv => .flags fun p => { p with overflow := false }
  | .cmp => .load true fun r m => r.compare r.a m
  | .cpx => .load false fun r m => r.compare r.x m
  | .cpy => .load false fun r m => r.compare r.y m
  | .dec => .modify (fun _ m => m - 1) fun r _ v => r.describe v
  | .dex => .compute fun r => r.setX (r.x - 1)
  | .dey => .compute fun r => r.setY (r.y - 1)
  | .eor => .load true fun r m => r.setA (r.a ^^^ m)
  | .inc => .modify (fun _ m => m + 1) fun r _ v => r.describe v
  | .inx => .compute fun r => r.setX (r.x + 1)
  | .iny => .compute fun r => r.setY (r.y + 1)
  | .jmp => .jump
  | .jsr => .call
  | .lda => .load true .setA
  | .ldx => .load true .setX
  | .ldy => .load true .setY
  | .lsr => .modify (fun _ m => m >>> 1) .movedRight
  | .nop => .load true fun r _ => r
  | .ora => .load true fun r m => r.setA (r.a ||| m)
  | .pha => .push fun r => r.a
  | .php => .push fun r => r.p.pushed true
  | .pla => .pull .setA
  | .plp => .pull fun r b => { r with p := .pulled b }
  | .rol => .modify Registers.rotatedLeft .movedLeft
  | .ror => .modify Registers.rotatedRight .movedRight
  | .rti => .returnFromInterrupt
  | .rts => .returnFromCall
  | .sbc => .load true .subtract
  | .sec => .flags fun p => { p with carry := true }
  | .sed => .flags fun p => { p with decimal := true }
  | .sei => .flags fun p => { p with interruptDisable := true }
  | .sta => .plainStore fun r => r.a
  | .stx => .plainStore fun r => r.x
  | .sty => .plainStore fun r => r.y
  | .tax => .compute fun r => r.setX r.a
  | .tay => .compute fun r => r.setY r.a
  | .tsx => .compute fun r => r.setX r.sp
  | .txa => .compute fun r => r.setA r.x
  | .txs => .compute fun r => { r with sp := r.x }
  | .tya => .compute fun r => r.setA r.y
  | .alr => .load false .maskAndShift
  | .anc => .load false fun r m => let r := r.setA (r.a &&& m); r.setCarry (Famicom.bit r.a 7)
  | .ane => .load false fun r m => r.setA (r.unstable (r.x &&& m))
  | .arr => .load false .maskAndRotate
  | .dcp => .modify (fun _ m => m - 1) fun r _ v => r.compare r.a v
  | .isc => .modify (fun _ m => m + 1) fun r _ v => r.subtract v
  | .las => .load true fun r m => let v := m &&& r.sp; { r.setA v with x := v, sp := v }
  | .lax => .load true fun r m =>
    let v := if mode = .immediate then r.unstable m else m
    { r.setA v with x := v }
  | .rla => .modify Registers.rotatedLeft fun r m v =>
    (r.setCarry (Famicom.bit m 7)).setA (r.a &&& v)
  | .rra => .modify Registers.rotatedRight fun r m v => (r.setCarry (Famicom.bit m 0)).add v
  | .sax => .plainStore fun r => r.a &&& r.x
  | .sbx => .load false .maskedDifference
  | .sha => .store (fun r page => r.a &&& r.x &&& (page + 1)) id
  | .shx => .store (fun r page => r.x &&& (page + 1)) id
  | .shy => .store (fun r page => r.y &&& (page + 1)) id
  | .slo => .modify (fun _ m => m <<< 1) fun r m v =>
    (r.setCarry (Famicom.bit m 7)).setA (r.a ||| v)
  | .sre => .modify (fun _ m => m >>> 1) fun r m v =>
    (r.setCarry (Famicom.bit m 0)).setA (r.a ^^^ v)
  | .tas => .store (fun r page => r.a &&& r.x &&& (page + 1)) fun r => { r with sp := r.a &&& r.x }
  | .usbc => .load false .subtract
  | .jam => .jam

end Famicom.Processor
