/-!
# Bytes, bits and words

The machine moves bytes (`UInt8`) and addresses with words (`UInt16`).  This module joins two bytes
to a word and takes a word apart (`wordOf`, `highByte`, `lowByte`), and does the same for a byte and
its eight bits (`byteOf`, `bit`), which is how a register of flags is written out and read in.
-/

namespace Famicom

/-- The word whose two bytes are given, the high one first. -/
def wordOf (high low : UInt8) : UInt16 := high.toUInt16 <<< 8 ||| low.toUInt16

/-- The upper byte of a word, the number of its page. -/
def highByte (w : UInt16) : UInt8 := (w >>> 8).toUInt8

/-- The lower byte of a word, its offset in the page. -/
def lowByte (w : UInt16) : UInt8 := w.toUInt8

/-- Two addresses lie on the same page when their upper bytes agree. -/
def samePage (a b : UInt16) : Bool := highByte a == highByte b

/-- A byte read as a signed number and widened to a word. -/
def signExtend (b : UInt8) : UInt16 := if b < 0x80 then b.toUInt16 else 0xFF00 ||| b.toUInt16

/-- Bit `i` of a byte, bit `0` being the lowest. -/
def bit (b : UInt8) (i : UInt8) : Bool := (b >>> i) &&& 1 == 1

/-- A truth value in bit `i` of an otherwise empty byte. -/
def atBit (v : Bool) (i : UInt8) : UInt8 := if v then 1 <<< i else 0

/-- The byte with the given bits, the highest first. -/
def byteOf (b7 b6 b5 b4 b3 b2 b1 b0 : Bool) : UInt8 :=
  atBit b7 7 ||| atBit b6 6 ||| atBit b5 5 ||| atBit b4 4 |||
    atBit b3 3 ||| atBit b2 2 ||| atBit b1 1 ||| atBit b0 0

/-- The bits of a byte in the opposite order. -/
def reverseBits (b : UInt8) : UInt8 :=
  byteOf (bit b 0) (bit b 1) (bit b 2) (bit b 3) (bit b 4) (bit b 5) (bit b 6) (bit b 7)

theorem toNat_highByte (w : UInt16) : (highByte w).toNat = w.toNat / 256 := by
  have := w.toNat_lt
  simp [highByte, Nat.shiftRight_eq_div_pow]
  omega

theorem toNat_lowByte (w : UInt16) : (lowByte w).toNat = w.toNat % 256 := by
  simp [lowByte]

/-- A byte in a higher place of a word, above its lower places. -/
theorem toNat_shiftLeft_or (byte : UInt8) {rest i : UInt16} {n : Nat}
    (hi : 1 <<< (i.toNat % 16) = n) (hrest : rest.toNat < n) (h : n * byte.toNat < 65536) :
    (byte.toUInt16 <<< i ||| rest).toNat = n * byte.toNat + rest.toNat := by
  rw [Nat.one_shiftLeft] at hi
  have hplace : (byte.toUInt16 <<< i).toNat = n * byte.toNat := by
    rw [UInt16.toNat_shiftLeft, UInt8.toNat_toUInt16, Nat.shiftLeft_eq, hi, Nat.mul_comm]
    exact Nat.mod_eq_of_lt h
  rw [UInt16.toNat_or, hplace, ← hi]
  exact (Nat.two_pow_add_eq_or_of_lt (hi ▸ hrest) _).symm

theorem toNat_wordOf (high low : UInt8) :
    (wordOf high low).toNat = 256 * high.toNat + low.toNat := by
  have hhigh : high.toNat < 256 := high.toNat_lt
  exact toNat_shiftLeft_or high (n := 256) rfl low.toNat_lt (by omega)

theorem toNat_and_seven (byte : UInt8) : (byte &&& 7).toNat = byte.toNat % 8 := by
  rw [UInt8.toNat_and]
  exact Nat.and_two_pow_sub_one_eq_mod _ 3

@[simp] theorem highByte_wordOf (high low : UInt8) : highByte (wordOf high low) = high := by
  apply UInt8.toNat_inj.1
  rw [toNat_highByte, toNat_wordOf]
  have := low.toNat_lt
  omega

@[simp] theorem lowByte_wordOf (high low : UInt8) : lowByte (wordOf high low) = low := by
  apply UInt8.toNat_inj.1
  rw [toNat_lowByte, toNat_wordOf]
  have := low.toNat_lt
  omega

@[simp] theorem highByte_toUInt16 (b : UInt8) : highByte b.toUInt16 = 0 := by
  apply UInt8.toNat_inj.1
  have := b.toNat_lt
  rw [toNat_highByte, UInt8.toNat_toUInt16]
  simp
  omega

/-- What is said of every byte can be tried on each. -/
instance decidableForallByte {p : UInt8 → Prop} [DecidablePred p] : Decidable (∀ b, p b) :=
  decidable_of_iff (∀ i : Fin 256, p (.ofFin i)) ⟨fun h b => h b.toFin, fun h _ => h _⟩

theorem bit_eq_testBit (b : UInt8) {i : UInt8} (h : i < 8) : bit b i = b.toNat.testBit i.toNat := by
  have hi : i.toNat % 8 = i.toNat := Nat.mod_eq_of_lt (UInt8.lt_iff_toNat_lt.mp h)
  have hbit : ((b >>> i) &&& 1).toNat = b.toNat / 2 ^ i.toNat % 2 := by
    rw [UInt8.toNat_and, UInt8.toNat_shiftRight, hi, Nat.shiftRight_eq_div_pow]
    exact Nat.and_two_pow_sub_one_eq_mod _ 1
  rw [Nat.testBit_eq_decide_div_mod_eq, ← hbit, bit, Bool.eq_iff_iff, beq_iff_eq,
    decide_eq_true_iff, ← UInt8.toNat_inj]
  rfl

theorem byteOf_bit (b : UInt8) :
    byteOf (bit b 7) (bit b 6) (bit b 5) (bit b 4) (bit b 3) (bit b 2) (bit b 1) (bit b 0) = b := by
  revert b
  decide +kernel

theorem bit_byteOf (b7 b6 b5 b4 b3 b2 b1 b0 : Bool) :
    let b := byteOf b7 b6 b5 b4 b3 b2 b1 b0
    bit b 7 = b7 ∧ bit b 6 = b6 ∧ bit b 5 = b5 ∧ bit b 4 = b4 ∧
      bit b 3 = b3 ∧ bit b 2 = b2 ∧ bit b 1 = b1 ∧ bit b 0 = b0 := by
  revert b7 b6 b5 b4 b3 b2 b1 b0
  decide +kernel

end Famicom
