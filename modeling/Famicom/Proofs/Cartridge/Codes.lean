import Famicom.Proofs.Console.Operations

/-!
# What the codes say

The letters of a code are digits of sixteen, but no digit of the patch is one letter.  It takes
three bits of one and its fourth from another: it hinges on both (`hinged`).  Read from the patch's
side, each bit of the address and of the bytes is in one letter, and one bit of the third letter is
in nothing.  So a patch has two spellings in large letters, the same but for the third.
-/

namespace Famicom.GameGenie

/-! ### Letters -/

/-- The letters of a code, large and small. -/
def letters : List Char := alphabet ++ alphabet.map Char.toLower

def letterOf (v : UInt8) : Char := alphabet.getD v.toNat 'A'

theorem toUpper_mem_alphabet (c : Char) : c.toUpper ∈ alphabet ↔ c ∈ letters := by
  by_cases h : 'a'.val ≤ c.val ∧ c.val ≤ 'z'.val
  · have hsmall : ∀ n : Fin 26, (Char.ofNat (97 + n)).toUpper ∈ alphabet ↔
        Char.ofNat (97 + n) ∈ letters := by
      decide
    have hlow : 97 ≤ c.toNat := h.1
    have hhigh : c.toNat ≤ 122 := h.2
    have hc := hsmall ⟨c.toNat - 97, by omega⟩
    rwa [Nat.add_sub_cancel' hlow, Char.ofNat_toNat] at hc
  · have hsmall : ((alphabet.map Char.toLower).all fun c =>
        decide ('a'.val ≤ c.val ∧ c.val ≤ 'z'.val)) = true := by
      decide
    rw [show c.toUpper = c from dif_neg h, letters, List.mem_append]
    exact (or_iff_left fun hmem =>
      h (of_decide_eq_true (List.all_eq_true.mp hsmall c hmem))).symm

theorem toUpper_of_isUpper {c : Char} (h : c.isUpper = true) : c.toUpper = c := by
  have hlast : c.val ≤ 'Z'.val := (of_decide_eq_true h).2
  exact dif_neg fun hsmall => absurd (UInt32.le_trans hsmall.1 hlast) (by decide)

theorem isSome_letterValue? (c : Char) : (letterValue? c).isSome ↔ c ∈ letters := by
  rw [letterValue?, Option.isSome_map, List.isSome_idxOf?, toUpper_mem_alphabet]

theorem letterValue?_eq_some_iff {c : Char} (hc : c.isUpper = true) {v : UInt8} :
    letterValue? c = some v ↔ v < 16 ∧ c = letterOf v := by
  constructor
  · intro h
    rw [letterValue?, toUpper_of_isUpper hc, Option.map_eq_some_iff] at h
    obtain ⟨i, hindex, rfl⟩ := h
    obtain ⟨hlt, rfl, -⟩ := List.idxOf?_eq_some_iff.mp hindex
    have hi : (UInt8.ofNat i).toNat = i :=
      UInt8.toNat_ofNat_of_lt' (Nat.lt_trans hlt (by decide))
    constructor
    · rw [UInt8.lt_iff_toNat_lt, hi]
      exact hlt
    · rw [letterOf, hi, List.getD_eq_getElem?_getD, List.getElem?_eq_getElem hlt]
      rfl
  · rintro ⟨hv, rfl⟩
    have hall : ∀ v : UInt8, v < 16 → letterValue? (letterOf v) = some v := by decide +kernel
    exact hall v hv

theorem isUpper_letterOf (v : UInt8) : (letterOf v).isUpper = true := by
  revert v
  decide +kernel

theorem letterValue?_letterOf {v : UInt8} (h : v < 16) : letterValue? (letterOf v) = some v :=
  (letterValue?_eq_some_iff (isUpper_letterOf v)).mpr ⟨h, rfl⟩

/-! ### Strings of letters -/

theorem mapM_letterValue?_eq_some_iff {cs : List Char} {vs : List UInt8} :
    cs.mapM letterValue? = some vs ↔ cs.map letterValue? = vs.map some := by
  induction cs generalizing vs with
  | nil => cases vs <;> simp
  | cons c cs ih =>
    rw [List.mapM_cons, List.map_cons]
    cases hv : letterValue? c with
    | none => cases vs <;> simp
    | some v =>
      cases hvs : cs.mapM letterValue? with
      | none => cases vs <;> simp [← ih, hvs]
      | some vs' => cases vs <;> simp [← ih, hvs]

theorem decode_eq_ok_iff {code : String} {g : GameGenie} :
    decode code = .ok g ↔
      ∃ vs, code.toList.map letterValue? = vs.map some ∧ ofLetters? vs = some g := by
  simp only [← mapM_letterValue?_eq_some_iff]
  unfold decode
  cases code.toList.mapM letterValue? with
  | none => simp
  | some vs => cases hg : ofLetters? vs <;> simp [hg]

theorem decode_eq_error_iff {code : String} {e : Error} :
    decode code = .error e ↔ e = .invalidCode code ∧ ∀ g, decode code ≠ .ok g := by
  unfold decode
  split <;> simp [eq_comm]

/-! ### Digits -/

/-- The three low bits of one number, and above them the fourth bit of another. -/
def hinged (low top : Nat) : Nat := 8 * (top / 8 % 2) + low % 8

theorem hinged_lt (low top : Nat) : hinged low top < 16 := by
  unfold hinged
  omega

theorem hinged_eq_iff {low top n : Nat} :
    hinged low top = n % 16 ↔ low % 8 = n % 8 ∧ top / 8 % 2 = n / 8 % 2 := by
  have hn : n % 16 = hinged n n := by
    unfold hinged
    omega
  rw [hn]
  unfold hinged
  omega

theorem toNat_and_eight (v : UInt8) : (v &&& 8).toNat = 8 * (v.toNat / 8 % 2) := by
  have hall : ∀ v : UInt8, (v &&& 8).toNat = 8 * (v.toNat / 8 % 2) := by decide +kernel
  exact hall v

theorem toNat_hinge (low top : UInt8) :
    (low &&& 7 ||| top &&& 8).toNat = hinged low.toNat top.toNat := by
  rw [UInt8.toNat_or, toNat_and_seven, toNat_and_eight, Nat.or_comm]
  exact (Nat.two_pow_add_eq_or_of_lt (i := 3) (Nat.mod_lt _ (by decide)) _).symm

/-- The number that four hexadecimal digits write. -/
theorem toNat_digits {d3 d2 d1 d0 : UInt8} (h3 : d3.toNat < 16) (h2 : d2.toNat < 16)
    (h1 : d1.toNat < 16) (h0 : d0.toNat < 16) :
    (d3.toUInt16 <<< 12 ||| (d2.toUInt16 <<< 8 ||| (d1.toUInt16 <<< 4 ||| d0.toUInt16))).toNat =
      0x1000 * d3.toNat + 0x100 * d2.toNat + 0x10 * d1.toNat + d0.toNat := by
  have hlast : (d1.toUInt16 <<< 4 ||| d0.toUInt16).toNat = 0x10 * d1.toNat + d0.toNat :=
    toNat_shiftLeft_or d1 rfl h0 (by omega)
  have hmiddle : (d2.toUInt16 <<< 8 ||| (d1.toUInt16 <<< 4 ||| d0.toUInt16)).toNat =
      0x100 * d2.toNat + (0x10 * d1.toNat + d0.toNat) := by
    rw [toNat_shiftLeft_or d2 (n := 0x100) rfl (by omega) (by omega), hlast]
  rw [toNat_shiftLeft_or d3 (n := 0x1000) rfl (by omega) (by omega), hmiddle]
  omega

theorem toNat_byteFrom (low high top : UInt8) :
    (byteFrom low high top).toNat =
      16 * hinged high.toNat low.toNat + hinged low.toNat top.toNat := by
  have hdigits : byteFrom low high top =
      (high &&& 7 ||| low &&& 8) <<< 4 ||| (low &&& 7 ||| top &&& 8) := by
    rw [byteFrom, UInt8.shiftLeft_or, UInt8.or_assoc _ (low &&& 7)]
  have hhigh := hinged_lt high.toNat low.toNat
  have hplace : ((high &&& 7 ||| low &&& 8) <<< 4).toNat = 16 * hinged high.toNat low.toNat := by
    rw [UInt8.toNat_shiftLeft, toNat_hinge, Nat.shiftLeft_eq, Nat.mul_comm]
    exact Nat.mod_eq_of_lt (show 16 * hinged high.toNat low.toNat < 256 by omega)
  rw [hdigits, UInt8.toNat_or, hplace, toNat_hinge]
  exact (Nat.two_pow_add_eq_or_of_lt (i := 4) (hinged_lt _ _) _).symm

theorem toNat_addressOf (n1 n2 n3 n4 n5 : UInt8) :
    (addressOf n1 n2 n3 n4 n5).toNat =
      0x8000 + 0x1000 * (n3.toNat % 8) + 0x100 * hinged n5.toNat n4.toNat +
        0x10 * hinged n2.toNat n1.toNat + hinged n4.toNat n3.toNat := by
  -- the bit that is always set stands where the third letter's fourth would
  have hdigits : addressOf n1 n2 n3 n4 n5 =
      (n3 &&& 7 ||| 8 &&& 8).toUInt16 <<< 12 ||| ((n5 &&& 7 ||| n4 &&& 8).toUInt16 <<< 8 |||
        ((n2 &&& 7 ||| n1 &&& 8).toUInt16 <<< 4 ||| (n4 &&& 7 ||| n3 &&& 8).toUInt16)) := by
    rw [UInt8.or_comm (n3 &&& 7)]
    simp only [addressOf, UInt8.toUInt16_or, UInt16.shiftLeft_or, UInt16.or_assoc]
    rfl
  have hdigit (low top : UInt8) : (low &&& 7 ||| top &&& 8).toNat < 16 := by
    rw [toNat_hinge]
    exact hinged_lt _ _
  have htop : hinged n3.toNat (UInt8.toNat 8) = 8 + n3.toNat % 8 := rfl
  rw [hdigits, toNat_digits (hdigit _ _) (hdigit _ _) (hdigit _ _) (hdigit _ _), toNat_hinge,
    toNat_hinge, toNat_hinge, toNat_hinge, htop]
  omega

/-! ### Where the bits of a patch are -/

theorem byteFrom_eq_iff {low high top byte : UInt8} :
    byteFrom low high top = byte ↔
      (high.toNat % 8 = byte.toNat / 0x10 % 8 ∧ low.toNat / 8 % 2 = byte.toNat / 0x10 / 8 % 2) ∧
      (low.toNat % 8 = byte.toNat % 8 ∧ top.toNat / 8 % 2 = byte.toNat / 8 % 2) := by
  have hlast := hinged_lt low.toNat top.toNat
  have hbyte : byte.toNat < 256 := byte.toNat_lt
  rw [← UInt8.toNat_inj, toNat_byteFrom, ← hinged_eq_iff, ← hinged_eq_iff]
  omega

theorem addressOf_eq_iff {n1 n2 n3 n4 n5 : UInt8} {a : UInt16} (ha : 0x8000 ≤ a) :
    addressOf n1 n2 n3 n4 n5 = a ↔
      n3.toNat % 8 = a.toNat / 0x1000 % 8 ∧
      (n5.toNat % 8 = a.toNat / 0x100 % 8 ∧ n4.toNat / 8 % 2 = a.toNat / 0x100 / 8 % 2) ∧
      (n2.toNat % 8 = a.toNat / 0x10 % 8 ∧ n1.toNat / 8 % 2 = a.toNat / 0x10 / 8 % 2) ∧
      (n4.toNat % 8 = a.toNat % 8 ∧ n3.toNat / 8 % 2 = a.toNat / 8 % 2) := by
  have hlow : 0x8000 ≤ a.toNat := UInt16.le_iff_toNat_le.mp ha
  have hhigh : a.toNat < 0x10000 := a.toNat_lt
  have h2 := hinged_lt n5.toNat n4.toNat
  have h1 := hinged_lt n2.toNat n1.toNat
  have h0 := hinged_lt n4.toNat n3.toNat
  rw [← UInt16.toNat_inj, toNat_addressOf, ← hinged_eq_iff, ← hinged_eq_iff, ← hinged_eq_iff]
  omega

/-- The numbers of a patch that the letters of its code hinge on.  The top bit of the third letter
is spare. -/
def hinges (g : GameGenie) (spare : Bool) : List (Nat × Nat) :=
  let a := g.address.toNat
  let d := g.data.toNat
  let tail :=
    match g.compare with
    | none => [(a / 0x100, d)]
    | some byte =>
      let c := byte.toNat
      [(a / 0x100, c), (c, c / 0x10), (c / 0x10, d)]
  [(d, d / 0x10), (d / 0x10, a / 0x10), (a / 0x10, 8 * spare.toNat), (a / 0x1000, a),
    (a, a / 0x100)] ++ tail

def values (g : GameGenie) (spare : Bool) : List UInt8 :=
  (g.hinges spare).map fun (low, top) => .ofNat (hinged low top)

theorem toNat_hinged (low top : Nat) : (UInt8.ofNat (hinged low top)).toNat = hinged low top :=
  UInt8.toNat_ofNat_of_lt' (Nat.lt_trans (hinged_lt low top) (by decide))

theorem hinged_ofNat_lt (low top : Nat) : UInt8.ofNat (hinged low top) < 16 := by
  rw [UInt8.lt_iff_toNat_lt, toNat_hinged]
  exact hinged_lt low top

theorem hinged_flip (low : Nat) :
    UInt8.ofNat (hinged low 8) = UInt8.ofNat (hinged low 0) ^^^ 8 := by
  have hall : ∀ n : Fin 8, UInt8.ofNat (8 * (8 / 8 % 2) + n) =
      UInt8.ofNat (8 * (0 / 8 % 2) + n) ^^^ 8 := by
    decide
  exact hall ⟨low % 8, Nat.mod_lt _ (by decide)⟩

theorem eq_hinged_iff {v : UInt8} (h : v < 16) {low top : Nat} :
    v = .ofNat (hinged low top) ↔ v.toNat % 8 = low % 8 ∧ v.toNat / 8 % 2 = top / 8 % 2 := by
  have hv : v.toNat < 16 := UInt8.lt_iff_toNat_lt.mp h
  rw [← UInt8.toNat_inj, toNat_hinged, eq_comm, ← Nat.mod_eq_of_lt hv, hinged_eq_iff]
  simp only [Nat.mod_eq_of_lt hv, eq_comm]

theorem eq_third_iff {v : UInt8} (h : v < 16) {low : Nat} :
    (∃ spare : Bool, v = .ofNat (hinged low (8 * spare.toNat))) ↔ v.toNat % 8 = low % 8 := by
  have hv : v.toNat < 16 := UInt8.lt_iff_toNat_lt.mp h
  simp only [eq_hinged_iff h, exists_and_left, and_iff_left_iff_imp]
  intro _
  rcases Nat.mod_two_eq_zero_or_one (v.toNat / 8) with h0 | h1
  · exact ⟨false, h0⟩
  · exact ⟨true, h1⟩

theorem values_lt (g : GameGenie) (spare : Bool) : ∀ v ∈ g.values spare, v < 16 :=
  List.forall_mem_map.mpr fun _ _ => hinged_ofNat_lt _ _

/-- The letters of a patch are worth its values, whatever the spare bit, and nothing else. -/
theorem ofLetters?_eq_some_iff {vs : List UInt8} (h : ∀ v ∈ vs, v < 16) {g : GameGenie}
    (ha : 0x8000 ≤ g.address) : ofLetters? vs = some g ↔ ∃ spare, vs = g.values spare := by
  obtain ⟨a, d, compare⟩ := g
  unfold ofLetters?
  split
  case h_1 n0 n1 n2 n3 n4 n5 =>
    simp only [List.forall_mem_cons] at h
    obtain ⟨h0, h1, h2, h3, h4, h5, -⟩ := h
    cases compare with
    | some c => simp [values, hinges]
    | none =>
      simp only [Option.some.injEq, GameGenie.mk.injEq, and_true, values, hinges, List.map_cons,
        List.cons_append, List.nil_append, List.map_nil, List.cons.injEq, eq_hinged_iff h0,
        eq_hinged_iff h1, eq_hinged_iff h3, eq_hinged_iff h4, eq_hinged_iff h5, exists_and_left,
        exists_and_right, eq_third_iff h2, addressOf_eq_iff ha, byteFrom_eq_iff]
      exact iff_of_eq (by ac_rfl)
  case h_2 n0 n1 n2 n3 n4 n5 n6 n7 =>
    simp only [List.forall_mem_cons] at h
    obtain ⟨h0, h1, h2, h3, h4, h5, h6, h7, -⟩ := h
    cases compare with
    | none => simp [values, hinges]
    | some c =>
      simp only [Option.some.injEq, GameGenie.mk.injEq, and_true, values, hinges, List.map_cons,
        List.cons_append, List.nil_append, List.map_nil, List.cons.injEq, eq_hinged_iff h0,
        eq_hinged_iff h1, eq_hinged_iff h3, eq_hinged_iff h4, eq_hinged_iff h5, eq_hinged_iff h6,
        eq_hinged_iff h7, exists_and_left, exists_and_right, eq_third_iff h2, addressOf_eq_iff ha,
        byteFrom_eq_iff]
      exact iff_of_eq (by ac_rfl)
  case h_3 hsix height =>
    refine iff_of_false (by simp) ?_
    rintro ⟨spare, rfl⟩
    cases compare with
    | none => exact hsix _ _ _ _ _ _ rfl
    | some c => exact height _ _ _ _ _ _ _ _ rfl

/-! ### Codes -/

theorem isSome_ofLetters? (vs : List UInt8) :
    (ofLetters? vs).isSome ↔ vs.length = 6 ∨ vs.length = 8 := by
  unfold ofLetters?
  split
  case h_1 => simp
  case h_2 => simp
  case h_3 hsix height =>
    refine iff_of_false (by simp) ?_
    rintro (h | h)
    · match vs, h with
      | [_, _, _, _, _, _], _ => exact hsix _ _ _ _ _ _ rfl
    · match vs, h with
      | [_, _, _, _, _, _, _, _], _ => exact height _ _ _ _ _ _ _ _ rfl

theorem exists_decode_eq_ok_iff (code : String) :
    (∃ g, decode code = .ok g) ↔
      (code.length = 6 ∨ code.length = 8) ∧ ∀ c ∈ code.toList, c ∈ letters := by
  simp only [decode_eq_ok_iff, ← isSome_letterValue?]
  rw [← String.length_toList]
  constructor
  · rintro ⟨g, vs, hvs, hg⟩
    have hlength := congrArg List.length hvs
    rw [List.length_map, List.length_map] at hlength
    rw [hlength, ← isSome_ofLetters?, hg]
    refine ⟨rfl, fun c hc => ?_⟩
    have hmem : letterValue? c ∈ vs.map some := hvs ▸ List.mem_map_of_mem hc
    obtain ⟨v, -, hv⟩ := List.mem_map.mp hmem
    rw [← hv]
    rfl
  · rintro ⟨hlength, hletters⟩
    have hg : (ofLetters? (code.toList.map fun c => (letterValue? c).getD 0)).isSome := by
      rwa [isSome_ofLetters?, List.length_map]
    obtain ⟨g, hg⟩ := Option.isSome_iff_exists.mp hg
    refine ⟨g, _, ?_, hg⟩
    rw [List.map_map]
    refine List.map_congr_left fun c hc => ?_
    obtain ⟨v, hv⟩ := Option.isSome_iff_exists.mp (hletters c hc)
    rw [Function.comp_apply, hv, Option.getD_some]

theorem le_address_of_decode {code : String} {g : GameGenie} (h : decode code = .ok g) :
    0x8000 ≤ g.address := by
  have hle (n1 n2 n3 n4 n5 : UInt8) : 0x8000 ≤ addressOf n1 n2 n3 n4 n5 := by
    rw [UInt16.le_iff_toNat_le, toNat_addressOf, Nat.add_assoc, Nat.add_assoc, Nat.add_assoc]
    exact Nat.le_add_right ..
  obtain ⟨vs, -, hg⟩ := decode_eq_ok_iff.mp h
  unfold ofLetters? at hg
  split at hg <;> cases hg <;> exact hle ..

theorem decode_eq_ok_iff_of_toUpper {s t : String}
    (h : s.toList.map Char.toUpper = t.toList.map Char.toUpper) (g : GameGenie) :
    decode s = .ok g ↔ decode t = .ok g := by
  have hvalues (code : String) : code.toList.map letterValue? =
      (code.toList.map Char.toUpper).map fun c => (alphabet.idxOf? c).map .ofNat := by
    rw [List.map_map]
    rfl
  rw [decode_eq_ok_iff, decode_eq_ok_iff, hvalues, hvalues, h]

theorem map_letterValue?_eq_iff {cs : List Char} (h : ∀ c ∈ cs, c.isUpper = true)
    {vs : List UInt8} :
    cs.map letterValue? = vs.map some ↔ (∀ v ∈ vs, v < 16) ∧ cs = vs.map letterOf := by
  induction cs generalizing vs with
  | nil => cases vs <;> simp
  | cons c cs ih =>
    obtain ⟨hc, hcs⟩ := List.forall_mem_cons.mp h
    cases vs with
    | nil => simp
    | cons v vs =>
      rw [List.map_cons, List.map_cons, List.map_cons, List.cons.injEq, List.cons.injEq,
        letterValue?_eq_some_iff hc, ih hcs, List.forall_mem_cons]
      exact and_and_and_comm

def encode (g : GameGenie) (spare : Bool) : String := .ofList ((g.values spare).map letterOf)

theorem isUpper_encode (g : GameGenie) (spare : Bool) :
    ∀ c ∈ (g.encode spare).toList, c.isUpper = true := by
  rw [encode, String.toList_ofList]
  exact List.forall_mem_map.mpr fun v _ => isUpper_letterOf v

/-- **A patch has two codes of large letters**, and no others. -/
theorem decode_eq_ok_iff_of_isUpper {code : String} (h : ∀ c ∈ code.toList, c.isUpper = true)
    {g : GameGenie} (ha : 0x8000 ≤ g.address) :
    decode code = .ok g ↔ ∃ spare, code = g.encode spare := by
  rw [decode_eq_ok_iff]
  simp only [map_letterValue?_eq_iff h]
  constructor
  · rintro ⟨vs, ⟨hlt, hletters⟩, hg⟩
    obtain ⟨spare, rfl⟩ := (ofLetters?_eq_some_iff hlt ha).mp hg
    exact ⟨spare, by rw [encode, ← hletters, String.ofList_toList]⟩
  · rintro ⟨spare, rfl⟩
    have hlt := g.values_lt spare
    exact ⟨_, ⟨hlt, String.toList_ofList ..⟩, (ofLetters?_eq_some_iff hlt ha).mpr ⟨spare, rfl⟩⟩

/-- Two codes that differ in their third letters alone, whose values differ in the top bit. -/
def Twins (s t : String) : Prop :=
  ∃ before c c' after v, s.toList = before ++ c :: after ∧ t.toList = before ++ c' :: after ∧
    before.length = 2 ∧ letterValue? c = some v ∧ letterValue? c' = some (v ^^^ 8)

/-- Two codes of so many large letters say this, and no other does. -/
def SpelledTwice (length : Nat) (g : GameGenie) : Prop :=
  ∃ s t, s ≠ t ∧ Twins s t ∧ ∀ code,
    code.length = length ∧ (∀ c ∈ code.toList, c.isUpper = true) ∧ decode code = .ok g ↔
      code = s ∨ code = t

theorem Twins.ne {s t : String} (h : Twins s t) : s ≠ t := by
  have hflip : ∀ v : UInt8, v ≠ v ^^^ 8 := by decide +kernel
  rintro rfl
  obtain ⟨before, c, c', after, v, hs, ht, -, hc, hc'⟩ := h
  obtain ⟨rfl, -⟩ := List.cons.inj (List.append_cancel_left (hs.symm.trans ht))
  exact hflip v (Option.some.inj (hc.symm.trans hc'))

theorem twins_encode (g : GameGenie) : Twins (g.encode false) (g.encode true) := by
  have hworth (top : Nat) := letterValue?_letterOf (hinged_ofNat_lt (g.address.toNat / 0x10) top)
  have hflip := hinged_flip (g.address.toNat / 0x10)
  refine ⟨((g.values false).take 2).map letterOf, _, _, ((g.values false).drop 3).map letterOf,
    _, String.toList_ofList .., String.toList_ofList .., rfl, hworth 0, ?_⟩
  rw [← hflip]
  exact hworth 8

theorem length_values (g : GameGenie) (spare : Bool) :
    (g.values spare).length = if g.compare = none then 6 else 8 := by
  rw [values, List.length_map, hinges]
  cases g.compare <;> rfl

theorem spelledTwice {g : GameGenie} (ha : 0x8000 ≤ g.address) :
    SpelledTwice (if g.compare = none then 6 else 8) g := by
  have htwins := twins_encode g
  refine ⟨g.encode false, g.encode true, htwins.ne, htwins, fun code => ?_⟩
  rw [← Bool.exists_bool (p := fun spare => code = g.encode spare)]
  constructor
  · rintro ⟨-, hupper, hcode⟩
    exact (decode_eq_ok_iff_of_isUpper hupper ha).mp hcode
  · rintro ⟨spare, rfl⟩
    have hupper := g.isUpper_encode spare
    refine ⟨?_, hupper, (decode_eq_ok_iff_of_isUpper hupper ha).mpr ⟨spare, rfl⟩⟩
    rw [← String.length_toList, encode, String.toList_ofList, List.length_map, length_values]

theorem perform_arm_of_ok {κ : Type} [Cartridge κ] (c : Console κ) {code : String} {g : GameGenie}
    (h : decode code = .ok g) :
    (c.perform (.arm code)).machine.bus = { c.machine.bus with gameGenie := some g } := by
  simp only [Console.perform, Console.arm, Machine.arm, h]
  rfl

theorem perform_arm_of_error {κ : Type} [Cartridge κ] (c : Console κ) {code : String}
    (h : ∀ g, decode code ≠ .ok g) :
    c.arm code = .error (.invalidCode code) ∧ c.perform (.arm code) = c := by
  have hcode : decode code = .error (.invalidCode code) := decode_eq_error_iff.mpr ⟨rfl, h⟩
  have harm : c.arm code = .error (.invalidCode code) := by
    simp only [Console.arm, Machine.arm, hcode]
    rfl
  exact ⟨harm, congrArg c.orElse harm⟩

/-- **Codes are exact.**  A string is a code if it is six or eight letters of the alphabet, large or
small; any other is reported as it was given and leaves the console alone.  The case of the letters
is all the same.  A code speaks of the upper half of the address space, and each patch there, with a
byte to compare or without, is spelled in large letters in two ways: the top bit of the third letter
is spare. -/
theorem decode_exact :
    (∀ code, (∃ g, decode code = .ok g) ↔
      (code.length = 6 ∨ code.length = 8) ∧ ∀ c ∈ code.toList, c ∈ letters) ∧
    (∀ (κ : Type) [Cartridge κ] (c : Console κ) (code : String),
      (∀ g, decode code = .ok g →
        (c.perform (.arm code)).machine.bus = { c.machine.bus with gameGenie := some g }) ∧
      ((∀ g, decode code ≠ .ok g) → decode code = .error (.invalidCode code) ∧
        c.arm code = .error (.invalidCode code) ∧ c.perform (.arm code) = c)) ∧
    (∀ s t : String, s.toList.map Char.toUpper = t.toList.map Char.toUpper →
      ∀ g, decode s = .ok g ↔ decode t = .ok g) ∧
    (∀ code g, decode code = .ok g → 0x8000 ≤ g.address) ∧
    (∀ address data, 0x8000 ≤ address → SpelledTwice 6 ⟨address, data, none⟩) ∧
    ∀ address data compare, 0x8000 ≤ address → SpelledTwice 8 ⟨address, data, some compare⟩ :=
  ⟨exists_decode_eq_ok_iff, fun _ _ c _ => ⟨fun _ => perform_arm_of_ok c,
    fun h => ⟨decode_eq_error_iff.mpr ⟨rfl, h⟩, perform_arm_of_error c h⟩⟩,
    fun _ _ => decode_eq_ok_iff_of_toUpper,
    fun _ _ => le_address_of_decode, fun _ _ ha => spelledTwice (g := ⟨_, _, none⟩) ha,
    fun _ _ compare ha => spelledTwice (g := ⟨_, _, some compare⟩) ha⟩

/-- A code in small letters, and two patches with their spellings. -/
theorem decode_exact_gossip :
    (decode "GOSSIP" = .ok ⟨0xD1DD, 0x14, none⟩ ∧
      "gossip".toList.map Char.toUpper = "GOSSIP".toList.map Char.toUpper ∧
      decode "gossip" = .ok ⟨0xD1DD, 0x14, none⟩) ∧
    ((0x8000 : UInt16) ≤ 0xD1DD ∧ SpelledTwice 6 ⟨0xD1DD, 0x14, none⟩) ∧
    ((0x8000 : UInt16) ≤ 0x94A7 ∧ SpelledTwice 8 ⟨0x94A7, 0x02, some 0x03⟩) := by
  obtain ⟨-, -, hcase, -, hsix, height⟩ := decode_exact
  have hlarge : decode "GOSSIP" = .ok ⟨0xD1DD, 0x14, none⟩ := by rfl
  have hletters : "gossip".toList.map Char.toUpper = "GOSSIP".toList.map Char.toUpper := by decide
  exact ⟨⟨hlarge, hletters, (hcase _ _ hletters _).mpr hlarge⟩,
    ⟨by decide, hsix _ _ (by decide)⟩, ⟨by decide, height _ _ _ (by decide)⟩⟩

end Famicom.GameGenie
