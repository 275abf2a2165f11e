import Famicom.Processor.Action

/-!
# Registers and integers

A byte stands for a number up to 255 (`toNat`), or, read as signed, for one from -128 to 127
(`toInt8.toInt`).  In these terms adding and subtracting are adding and subtracting: the accumulator
keeps the result within a byte, the carry says whether the unsigned result has left the byte, where
a subtraction counts the borrow as a carry that is missing, and the overflow whether the signed one
has (`add_added`, `subtract_subtracted`).  A comparison is a subtraction of which only flags remain
(`compare_compared`, `maskedDifference_compared`).
-/

namespace Famicom

/-! ### The top bit -/

theorem bit_seven (b : UInt8) : bit b 7 = decide (128 ≤ b.toNat) := by
  have hb := b.toNat_lt
  rw [bit_eq_testBit b (by decide), Nat.testBit_eq_decide_div_mod_eq, decide_eq_decide]
  show b.toNat / 128 % 2 = 1 ↔ _
  omega

theorem bit_zero (b : UInt8) : bit b 0 = (b.toNat % 2 == 1) := by
  rw [bit_eq_testBit b (by decide), Nat.testBit_eq_decide_div_mod_eq]
  show decide (b.toNat / 1 % 2 = 1) = _
  rw [Nat.div_one]
  rfl

theorem bit_seven_eq_testBit (b : UInt8) : bit b 7 = b.toNat.testBit 7 := bit_eq_testBit b (by decide)

theorem bit_seven_xor (a b : UInt8) : bit (a ^^^ b) 7 = (bit a 7 ^^ bit b 7) := by
  simp only [bit_seven_eq_testBit, UInt8.toNat_xor, Nat.testBit_xor]

theorem bit_seven_and (a b : UInt8) : bit (a &&& b) 7 = (bit a 7 && bit b 7) := by
  simp only [bit_seven_eq_testBit, UInt8.toNat_and, Nat.testBit_and]

theorem toNat_complement (b : UInt8) : (~~~b).toNat = 255 - b.toNat := by
  simp

theorem toInt_eq (b : UInt8) :
    b.toInt8.toInt = if b.toNat < 128 then (b.toNat : Int) else b.toNat - 256 := by
  have hb := b.toNat_lt
  have hcond : b.toInt8.toInt = _ := BitVec.toInt_eq_toNat_cond b.toBitVec
  rw [hcond]
  show (if 2 * b.toNat < 2 ^ 8 then (b.toNat : Int) else b.toNat - (2 ^ 8 : Nat)) = _
  split <;> split <;> omega

theorem toNat_signExtend (b : UInt8) :
    ((signExtend b).toNat : Int) = b.toInt8.toInt % 0x10000 := by
  have hb := b.toNat_lt
  have hhigh : (0xFF00 ||| b.toUInt16).toNat = 0xFF00 + b.toNat := by
    rw [UInt16.toNat_or, UInt8.toNat_toUInt16]
    exact (Nat.two_pow_add_eq_or_of_lt hb 0xFF).symm
  have hless : b < 0x80 ↔ b.toNat < 128 := UInt8.lt_iff_toNat_lt
  rw [toInt_eq, signExtend]
  simp only [hless]
  split
  · rw [UInt8.toNat_toUInt16]
    omega
  · rw [hhigh]
    omega

namespace Processor

/-! ### What integers say -/

/-- Zero and negative describe a result. -/
def Status.Describes (p : Status) (result : UInt8) : Prop :=
  (p.zero = true ↔ result = 0) ∧ (p.negative = true ↔ result.toInt8.toInt < 0)

theorem Status.describe_describes (p : Status) (v : UInt8) : (p.describe v).Describes v := by
  have hv := v.toNat_lt
  refine ⟨beq_iff_eq, ?_⟩
  show bit v 7 = true ↔ _
  rw [bit_seven, decide_eq_true_iff, toInt_eq]
  split <;> omega

namespace Registers

/-- From `r` to `r'` the accumulator has become `n`, as far as that fits into a byte, with the flags
that go with it; read as signed the result is `s`. -/
structure Computed (r r' : Registers) (n s : Int) (carry : Prop) : Prop where
  result : (r'.a.toNat : Int) = n % 256
  carry : r'.p.carry = true ↔ carry
  overflow : r'.p.overflow = true ↔ s < -128 ∨ 127 < s
  describes : r'.p.Describes r'.a
  /-- nothing else changes, neither the decimal mode nor whether interrupts are disabled -/
  others : r' = { r with
    a := r'.a
    p := { r.p with
      negative := r'.p.negative
      overflow := r'.p.overflow
      zero := r'.p.zero
      carry := r'.p.carry } }

/-- A byte and the carry were added to the accumulator. -/
def Added (r : Registers) (m : UInt8) (r' : Registers) : Prop :=
  Computed r r' (r.a.toNat + m.toNat + r.p.carry.toNat)
    (r.a.toInt8.toInt + m.toInt8.toInt + r.p.carry.toNat)
    (256 ≤ r.a.toNat + m.toNat + r.p.carry.toNat)

/-- A byte and the missing carry were taken from the accumulator. -/
def Subtracted (r : Registers) (m : UInt8) (r' : Registers) : Prop :=
  Computed r r' (r.a.toNat - m.toNat - (1 - r.p.carry.toNat))
    (r.a.toInt8.toInt - m.toInt8.toInt - (1 - r.p.carry.toNat))
    (m.toNat + (1 - r.p.carry.toNat) ≤ r.a.toNat)

/-- From `p` to `p'` the flags that a comparison sets have come to say how a number compares with
another. -/
structure Compared (p p' : Status) (register m : UInt8) : Prop where
  carry : p'.carry = true ↔ m.toNat ≤ register.toNat
  zero : p'.zero = true ↔ register = m
  negative : p'.negative = true ↔ 128 ≤ ((register.toNat : Int) - m.toNat) % 256
  others : p' = { p with negative := p'.negative, zero := p'.zero, carry := p'.carry }

/-! ### What the registers do -/

theorem add_added (r : Registers) (m : UInt8) : Added r m (r.add m) := by
  obtain ⟨a, x, y, sp, p⟩ := r
  have ha := a.toNat_lt
  have hm := m.toNat_lt
  have hc := p.carry.toNat_le
  have hresult : (UInt8.ofNat (a.toNat + m.toNat + p.carry.toNat)).toNat =
      (a.toNat + m.toNat + p.carry.toNat) % 256 := UInt8.toNat_ofNat'
  refine ⟨?_, decide_eq_true_iff, ?_, Status.describe_describes _ _, rfl⟩
  · show ((UInt8.ofNat (a.toNat + m.toNat + p.carry.toNat)).toNat : Int) = _
    rw [hresult]
    rfl
  · -- the result has another sign than both of the numbers
    show bit ((a ^^^ .ofNat (a.toNat + m.toNat + p.carry.toNat)) &&&
      (m ^^^ .ofNat (a.toNat + m.toNat + p.carry.toNat))) 7 = true ↔ _
    rw [bit_seven_and, bit_seven_xor, bit_seven_xor, bit_seven, bit_seven, bit_seven, hresult,
      toInt_eq, toInt_eq]
    by_cases h1 : a.toNat < 128 <;> by_cases h2 : m.toNat < 128 <;>
      by_cases h3 : (a.toNat + m.toNat + p.carry.toNat) % 256 < 128 <;>
        simp [h1, h2, h3, Nat.not_le.mpr, Nat.not_lt.mp] <;> omega

theorem subtract_subtracted (r : Registers) (m : UInt8) : Subtracted r m (r.subtract m) := by
  obtain ⟨hresult, hcarry, hoverflow, hdescribes, hothers⟩ := r.add_added (~~~m)
  have hm := m.toNat_lt
  have hc := r.p.carry.toNat_le
  rw [toNat_complement] at hresult hcarry
  rw [toInt_eq, toInt_eq, toNat_complement] at hoverflow
  refine ⟨?_, ?_, ?_, hdescribes, hothers⟩
  · rw [subtract, hresult]
    omega
  · rw [subtract, hcarry]
    omega
  · rw [subtract, hoverflow, toInt_eq, toInt_eq]
    split <;> split <;> split <;> omega

theorem compared_of_difference (p : Status) (register m : UInt8) :
    Compared p ({ p with carry := decide (m ≤ register) }.describe (register - m)) register m := by
  have hr := register.toNat_lt
  have hm := m.toNat_lt
  have hsub : (register - m).toNat = (256 - m.toNat + register.toNat) % 256 := UInt8.toNat_sub ..
  refine ⟨decide_eq_true_iff.trans UInt8.le_iff_toNat_le, ?_, ?_, rfl⟩
  · show (register - m == 0) = true ↔ _
    rw [beq_iff_eq, ← UInt8.toNat_inj, ← UInt8.toNat_inj, hsub]
    show _ = 0 ↔ _
    omega
  · show bit (register - m) 7 = true ↔ _
    rw [bit_seven, decide_eq_true_iff, hsub]
    omega

theorem compare_compared (r : Registers) (register m : UInt8) :
    Compared r.p (r.compare register m).p register m :=
  compared_of_difference r.p register m

theorem maskedDifference_compared (r : Registers) (m : UInt8) :
    Compared r.p (r.maskedDifference m).p (r.a &&& r.x) m :=
  compared_of_difference r.p _ m

theorem toNat_rotatedRight (r : Registers) (m : UInt8) :
    (r.rotatedRight m).toNat = m.toNat / 2 + 128 * r.p.carry.toNat := by
  have hm := m.toNat_lt
  have hhalf : (m >>> 1).toNat = m.toNat / 2 := by simp [Nat.shiftRight_eq_div_pow]
  have hlt : m.toNat / 2 < 2 ^ 7 := by omega
  show (m >>> 1 ||| atBit r.p.carry 7).toNat = _
  rw [UInt8.toNat_or, hhalf, Nat.or_comm]
  cases r.p.carry with
  | false => exact Nat.zero_or _
  | true =>
    rw [Nat.add_comm]
    exact (Nat.two_pow_add_eq_or_of_lt hlt 1).symm

end Registers

/-! ### The instructions that compute -/

open Registers

def Mnemonic.arithmetic : List Mnemonic :=
  [.adc, .sbc, .usbc, .isc, .rra, .cmp, .cpx, .cpy, .dcp, .sbx]

/-- From `r` to `r'` an instruction has computed with the byte `m`. -/
def Mnemonic.Computes (r : Registers) (m : UInt8) (r' : Registers) : Mnemonic → Prop
  | .adc => Added r m r'
  | .sbc | .usbc => Subtracted r m r'
  | .isc => Subtracted r (m + 1) r'
  | .rra =>
    -- the carry that is added is the bit that the rotation has shifted out
    Added (r.setCarry (m.toNat % 2 == 1)) (.ofNat (m.toNat / 2 + 128 * r.p.carry.toNat)) r'
  | .cmp => Compared r.p r'.p r.a m ∧ r' = { r with p := r'.p }
  | .cpx => Compared r.p r'.p r.x m ∧ r' = { r with p := r'.p }
  | .cpy => Compared r.p r'.p r.y m ∧ r' = { r with p := r'.p }
  | .dcp => Compared r.p r'.p r.a (m - 1) ∧ r' = { r with p := r'.p }
  | .sbx => Compared r.p r'.p (r.a &&& r.x) m ∧
      (r'.x.toNat : Int) = ((r.a &&& r.x).toNat - m.toNat) % 256 ∧
      r' = { r with x := r'.x, p := r'.p }
  | _ => False

/-- The byte that some of them put in the place of their operand. -/
def Mnemonic.stored (r : Registers) (m : UInt8) : Mnemonic → Option UInt8
  | .isc => some (m + 1)
  | .dcp => some (m - 1)
  | .rra => some (.ofNat (m.toNat / 2 + 128 * r.p.carry.toNat))
  | _ => none

def Action.result (r : Registers) (m : UInt8) : Action → Registers
  | .load _ f => f r m
  | .modify byte settle => settle r m (byte r m)
  | _ => r

/-- What it puts in the place of its operand. -/
def Action.rewrites (r : Registers) (m : UInt8) : Action → Option UInt8
  | .modify byte _ => some (byte r m)
  | _ => none

theorem rotatedRight_eq (r : Registers) (m : UInt8) :
    r.rotatedRight m = .ofNat (m.toNat / 2 + 128 * r.p.carry.toNat) := by
  apply UInt8.toNat_inj.mp
  have hm := m.toNat_lt
  have hc := r.p.carry.toNat_le
  rw [toNat_rotatedRight, UInt8.toNat_ofNat']
  omega

theorem rotated_added (r : Registers) (m : UInt8) :
    Added (r.setCarry (m.toNat % 2 == 1)) (r.rotatedRight m)
      ((r.setCarry (bit m 0)).add (r.rotatedRight m)) := by
  rw [bit_zero]
  exact add_added _ _

theorem Mnemonic.computes_result {mnemonic : Mnemonic} (h : mnemonic ∈ arithmetic) (mode : Mode)
    (r : Registers) (m : UInt8) :
    mnemonic.Computes r m ((mnemonic.action mode).result r m) ∧
      (mnemonic.action mode).rewrites r m = mnemonic.stored r m := by
  cases mnemonic with
  | adc => exact ⟨add_added r m, rfl⟩
  | sbc | usbc => exact ⟨subtract_subtracted r m, rfl⟩
  | isc => exact ⟨subtract_subtracted r (m + 1), rfl⟩
  | rra =>
    refine ⟨?_, congrArg some (rotatedRight_eq r m)⟩
    rw [Computes, ← rotatedRight_eq]
    exact rotated_added r m
  | cmp => exact ⟨⟨compare_compared r r.a m, rfl⟩, rfl⟩
  | cpx => exact ⟨⟨compare_compared r r.x m, rfl⟩, rfl⟩
  | cpy => exact ⟨⟨compare_compared r r.y m, rfl⟩, rfl⟩
  | dcp => exact ⟨⟨compare_compared r r.a (m - 1), rfl⟩, rfl⟩
  | sbx =>
    refine ⟨⟨maskedDifference_compared r m, ?_, rfl⟩, rfl⟩
    have hr := (r.a &&& r.x).toNat_lt
    have hm := m.toNat_lt
    show (((r.a &&& r.x) - m).toNat : Int) = _
    rw [UInt8.toNat_sub]
    omega
  | _ => exact absurd h (by decide)

end Processor

end Famicom
