import Famicom.Word

/-!
# Joypads

A pad has eight buttons and hands them out one bit at a time.  While the strobe is held the pad
keeps showing its first button; once it is released each poll shifts to the next one, and after the
eighth every further bit is one.
-/

namespace Famicom

/-- A pad: the buttons held down, in the order in which they are shifted out from the lowest bit on
(A, B, select, start, up, down, left, right), the strobe line, and how many were shifted out. -/
structure Joypad where
  buttons : UInt8 := 0
  strobe : Bool := false
  shifted : Nat := 0
  deriving DecidableEq, Repr, Inhabited

namespace Joypad

def setButtons (p : Joypad) (b : UInt8) : Joypad := { p with buttons := b }

/-- Holds down the given buttons too. -/
def press (p : Joypad) (b : UInt8) : Joypad := { p with buttons := p.buttons ||| b }

/-- Lets go of the given buttons. -/
def release (p : Joypad) (b : UInt8) : Joypad := { p with buttons := p.buttons &&& ~~~b }

/-- Moves the strobe line; the next bit is the first button again. -/
def setStrobe (p : Joypad) (level : Bool) : Joypad := { p with strobe := level, shifted := 0 }

/-- The bit on the line, without shifting. -/
def line (p : Joypad) : Bool :=
  if p.strobe then bit p.buttons 0
  else if p.shifted < 8 then bit p.buttons (.ofNat p.shifted)
  else true

/-- The bit on the line, and the pad shifted to the next. -/
def poll (p : Joypad) : Bool × Joypad :=
  (p.line, if p.strobe || 8 ≤ p.shifted then p else { p with shifted := p.shifted + 1 })

end Joypad

end Famicom
