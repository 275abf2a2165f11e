import Famicom.Picture.SpriteUnit
import Famicom.Picture.Background

/-!
# Shift registers

The pixels of a line of a tile are the bits of two bytes, the leftmost in the top bits.  The
background draws from words that hold two tiles side by side and are moved up pixel by pixel
(`pair`); a sprite draws from bytes.  Here is what stands in the bit on show after some shifts
(`tap_pair`, `topBit_shifted`), and what loading a tile makes of a word (`pair_load`).
-/

namespace Famicom

theorem testBit_wordOf (high low : UInt8) (i : Nat) :
    (wordOf high low).toNat.testBit i =
      if i < 8 then low.toNat.testBit i else high.toNat.testBit (i - 8) := by
  rw [toNat_wordOf]
  exact Nat.testBit_two_pow_mul_add high.toNat low.toNat_lt i

theorem word_ext {w w' : UInt16} (h : ∀ i < 16, w.toNat.testBit i = w'.toNat.testBit i) :
    w = w' := by
  have hlarge (w : UInt16) {i : Nat} (hi : 16 ≤ i) : w.toNat.testBit i = false :=
    Nat.testBit_lt_two_pow
      (Nat.lt_of_lt_of_le w.toNat_lt (Nat.pow_le_pow_right (by decide) hi))
  apply UInt16.toNat_inj.1
  apply Nat.eq_of_testBit_eq
  intro i
  rcases Nat.lt_or_ge i 16 with hi | hi
  · exact h i hi
  · rw [hlarge w hi, hlarge w' hi]

theorem toNat_shiftLeft_four {w : UInt16} (h : w.toNat < 0x1000) :
    (w <<< 4).toNat = 16 * w.toNat := by
  rw [UInt16.toNat_shiftLeft, show (4 : UInt16).toNat % 16 = 4 from rfl, Nat.shiftLeft_eq]
  omega

namespace Picture

/-! ### Words of the background -/

namespace Background

/-- Two tiles side by side, moved up by `n` pixels. -/
def pair (a b : UInt8) (n : Nat) : UInt16 := wordOf a b <<< .ofNat n

theorem testBit_pair (a b : UInt8) {n i : Nat} (hn : n ≤ i) (h : i < 16) :
    (pair a b n).toNat.testBit i = (wordOf a b).toNat.testBit (i - n) := by
  have hmod : n % 65536 % 16 = n := by omega
  rw [pair, UInt16.toNat_shiftLeft, UInt16.toNat_ofNat', hmod, Nat.testBit_mod_two_pow,
    Nat.testBit_shiftLeft]
  simp [h, hn]

theorem testBit_pair_of_lt (a b : UInt8) {n i : Nat} (hi : i < n) (h : n < 16) :
    (pair a b n).toNat.testBit i = false := by
  have hmod : n % 65536 % 16 = n := by omega
  rw [pair, UInt16.toNat_shiftLeft, UInt16.toNat_ofNat', hmod, Nat.testBit_mod_two_pow,
    Nat.testBit_shiftLeft]
  simp [Nat.not_le.mpr hi]

theorem pair_zero (a b : UInt8) : pair a b 0 = wordOf a b :=
  word_ext fun _ hi => testBit_pair a b (Nat.zero_le _) hi

theorem pair_shift (a b : UInt8) {n : Nat} (h : n < 15) : pair a b n <<< 1 = pair a b (n + 1) := by
  apply word_ext
  intro i hi
  have hshift : (pair a b n <<< 1).toNat.testBit i =
      (decide (1 ≤ i) && (pair a b n).toNat.testBit (i - 1)) := by
    rw [UInt16.toNat_shiftLeft, Nat.testBit_mod_two_pow, show (1 : UInt16).toNat % 16 = 1 from rfl,
      Nat.testBit_shiftLeft]
    simp [hi]
  rw [hshift]
  rcases Nat.lt_or_ge n i with hlt | hge
  · rw [testBit_pair a b (Nat.le_sub_one_of_lt hlt) (by omega), testBit_pair a b hlt hi]
    have hone : 1 ≤ i := by omega
    have hsub : i - 1 - n = i - (n + 1) := by omega
    simp [hone, hsub]
  · rw [testBit_pair_of_lt a b (Nat.lt_succ_of_le hge) (Nat.succ_lt_succ h)]
    by_cases hone : 1 ≤ i
    · rw [testBit_pair_of_lt a b (by omega) (by omega), Bool.and_false]
    · simp [hone]

/-- After eight pixels the second tile stands where the first stood. -/
theorem pair_eight (a b : UInt8) : pair a b 8 = pair b 0 0 := by
  apply word_ext
  intro i hi
  rcases Nat.lt_or_ge i 8 with hlt | hge
  · rw [testBit_pair_of_lt a b hlt (by decide), pair_zero, testBit_wordOf, if_pos hlt]
    exact (Nat.zero_testBit i).symm
  · have hlow : i - 8 < 8 := by omega
    rw [testBit_pair a b hge hi, pair_zero, testBit_wordOf, testBit_wordOf, if_pos hlow,
      if_neg (Nat.not_lt.mpr hge)]

theorem pair_load (a b c : UInt8) : pair a b 0 &&& 0xFF00 ||| c.toUInt16 = pair a c 0 := by
  have hmask : ∀ i < 16, (0xFF00 : UInt16).toNat.testBit i = decide (8 ≤ i) := by decide
  apply word_ext
  intro i hi
  rw [pair_zero, pair_zero, testBit_wordOf, UInt16.toNat_or, UInt16.toNat_and, Nat.testBit_or,
    Nat.testBit_and, hmask i hi, testBit_wordOf, UInt8.toNat_toUInt16]
  by_cases hlt : i < 8
  · simp [hlt, Nat.not_le.mpr hlt]
  · have hge : 8 ≤ i := Nat.le_of_not_lt hlt
    have hc : c.toNat.testBit i = false :=
      Nat.testBit_lt_two_pow
        (Nat.lt_of_lt_of_le c.toNat_lt (Nat.pow_le_pow_right (by decide) hge))
    simp [hlt, hge, hc]

theorem pair_loadFirst (a : UInt8) : a.toUInt16 <<< 8 = pair a 0 0 := by
  rw [pair_zero, wordOf]
  exact UInt16.or_zero.symm

def byteOfEight (v : Bool) : UInt8 := if v then 0xFF else 0

theorem eightOf_eq (v : Bool) : eightOf v = (byteOfEight v).toUInt16 := by cases v <;> rfl

theorem testBit_byteOfEight (v : Bool) {i : Nat} (h : i < 8) :
    (byteOfEight v).toNat.testBit i = v := by
  have hall : ∀ v : Bool, ∀ i < 8, (byteOfEight v).toNat.testBit i = v := by decide
  exact hall v i h

theorem tap_eq (w : UInt16) {f : UInt8} (hf : f.toNat ≤ 7) :
    tap w f = atBit (w.toNat.testBit (15 - f.toNat)) 0 := by
  have hmod : f.toNat % 16 = f.toNat := by omega
  have hfifteen : UInt16.toNat 15 % 16 = 15 := rfl
  have hlt : w.toNat <<< f.toNat % 2 ^ 16 < 2 ^ 16 := Nat.mod_lt _ (by decide)
  have hbit : (w.toNat <<< f.toNat % 2 ^ 16).testBit 15 = w.toNat.testBit (15 - f.toNat) := by
    have hle : f.toNat ≤ 15 := by omega
    rw [Nat.testBit_mod_two_pow, Nat.testBit_shiftLeft]
    simp [hle]
  have htop : (tap w f).toNat = (w.toNat <<< f.toNat % 2 ^ 16) / 2 ^ 15 := by
    simp only [tap, UInt16.toNat_toUInt8, UInt16.toNat_shiftRight, UInt16.toNat_shiftLeft,
      UInt8.toNat_toUInt16, hmod, hfifteen, Nat.shiftRight_eq_div_pow]
    omega
  apply UInt8.toNat_inj.1
  rw [htop, ← hbit, Nat.testBit_eq_decide_div_mod_eq]
  have hq : (w.toNat <<< f.toNat % 2 ^ 16) / 2 ^ 15 < 2 := by omega
  generalize (w.toNat <<< f.toNat % 2 ^ 16) / 2 ^ 15 = q at hq
  rcases Nat.lt_succ_iff_lt_or_eq.mp hq with hq | hq
  · rw [Nat.lt_one_iff.mp hq]
    rfl
  · rw [hq]
    rfl

/-- The bit on show `n` pixels on: one of the first tile, or of the second after the first's
last. -/
theorem tap_pair (a b : UInt8) {f : UInt8} {n : Nat} (hf : f.toNat ≤ 7) (hn : n ≤ 7) :
    tap (pair a b n) f =
      atBit (if f.toNat + n < 8 then a.toNat.testBit (7 - (f.toNat + n))
        else b.toNat.testBit (7 - (f.toNat + n - 8))) 0 := by
  rw [tap_eq _ hf, testBit_pair a b (by omega) (by omega), testBit_wordOf]
  congr 1
  by_cases hlt : f.toNat + n < 8
  · rw [if_pos hlt, if_neg (by omega)]
    congr 1
    omega
  · rw [if_neg hlt, if_pos (by omega)]
    congr 1
    omega

end Background

/-! ### Bytes of a sprite -/

namespace SpriteSlot

/-- A byte moved up by `n` pixels. -/
def shifted (b : UInt8) : Nat → UInt8
  | 0 => b
  | n + 1 => shifted b n <<< 1

theorem toNat_shifted (b : UInt8) (n : Nat) : (shifted b n).toNat = (b.toNat <<< n) % 256 := by
  induction n with
  | zero => exact (Nat.mod_eq_of_lt b.toNat_lt).symm
  | succ n ih =>
    have hstep : (shifted b n <<< 1).toNat = (shifted b n).toNat * 2 % 256 := by
      rw [UInt8.toNat_shiftLeft, Nat.shiftLeft_eq]
      rfl
    rw [shifted, hstep, ih, Nat.mod_mul_mod, Nat.shiftLeft_succ, Nat.mul_comm]

theorem topBit_shifted (b : UInt8) {n : Nat} (h : n < 8) :
    bit (shifted b n) 7 = b.toNat.testBit (7 - n) := by
  rw [bit_eq_testBit _ (by decide), toNat_shifted]
  show (b.toNat <<< n % 2 ^ 8).testBit 7 = _
  rw [Nat.testBit_mod_two_pow, Nat.testBit_shiftLeft]
  simp [Nat.le_of_lt_succ h]

theorem testBit_reverseBits (b : UInt8) {n : Nat} (h : n < 8) :
    (reverseBits b).toNat.testBit (7 - n) = b.toNat.testBit n := by
  obtain ⟨h7, h6, h5, h4, h3, h2, h1, h0⟩ := bit_byteOf (bit b 0) (bit b 1) (bit b 2) (bit b 3)
    (bit b 4) (bit b 5) (bit b 6) (bit b 7)
  have hbit {i j : UInt8} (hi : i < 8) (hj : j < 8) (hsame : bit (reverseBits b) i = bit b j) :
      (reverseBits b).toNat.testBit i.toNat = b.toNat.testBit j.toNat := by
    rw [← bit_eq_testBit _ hi, hsame, bit_eq_testBit _ hj]
  match n with
  | 0 => exact hbit (i := 7) (j := 0) (by decide) (by decide) h7
  | 1 => exact hbit (i := 6) (j := 1) (by decide) (by decide) h6
  | 2 => exact hbit (i := 5) (j := 2) (by decide) (by decide) h5
  | 3 => exact hbit (i := 4) (j := 3) (by decide) (by decide) h4
  | 4 => exact hbit (i := 3) (j := 4) (by decide) (by decide) h3
  | 5 => exact hbit (i := 2) (j := 5) (by decide) (by decide) h2
  | 6 => exact hbit (i := 1) (j := 6) (by decide) (by decide) h1
  | 7 => exact hbit (i := 0) (j := 7) (by decide) (by decide) h0

end SpriteSlot

end Picture

end Famicom
