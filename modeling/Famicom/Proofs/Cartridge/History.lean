import Famicom.Proofs.Cartridge.Image
import Mathlib.Data.List.Basic
import Mathlib.Data.List.Induction

/-!
# Cartridges remember their history

What a cartridge reads as is decided by the file it comes from and by what has been done to it: by
the byte last written to a cell of memory, or by the bank last asked for.  The history of a
cartridge is a list of uses, and `ImageFile.processorByte` and `ImageFile.patternByte` say what each
address reads as after it, in terms of the file alone.  They have no answer where they would have to
look outside the data of the file.

A cartridge can be copied, and the copies be used in turn.  Each of them goes by its own history,
which it shares with the cartridge it is a copy of up to the moment when it was made
(`Image.parse_remembers`).

One lemma says what a use does to the part of a board that a read looks at, and the run lemma
follows from it by induction on the uses, from the latest back.
-/

namespace Famicom

/-! ### Uses -/

/-- What can be done to a cartridge. -/
inductive CartridgeUse where
  | write (address : UInt16) (byte : UInt8)
  | writePattern (address : UInt16) (byte : UInt8)
  | reset
  deriving DecidableEq, Repr

namespace CartridgeUse

def apply {κ : Type} [Cartridge κ] (cart : κ) : CartridgeUse → κ
  | write address byte => Cartridge.write cart address byte
  | writePattern address byte => Cartridge.writePattern cart address byte
  | reset => Cartridge.reset cart

def run {κ : Type} [Cartridge κ] (cart : κ) (past : List CartridgeUse) : κ := past.foldl apply cart

/-- The byte that the use writes to an address of the processor. -/
def written (address : UInt16) : CartridgeUse → Option UInt8
  | write address' byte => if address' = address then some byte else none
  | _ => none

/-- The byte that the use writes to an address of the pattern tables. -/
def writtenPattern (address : UInt16) : CartridgeUse → Option UInt8
  | writePattern address' byte => if address' = address then some byte else none
  | _ => none

/-- The byte that the use writes to the upper half of the processor's addresses. -/
def asked : CartridgeUse → Option UInt8
  | write address byte => if 0x8000 ≤ address then some byte else none
  | _ => none

end CartridgeUse

open CartridgeUse

/-- The last byte that the uses have to tell. -/
def latest (tells : CartridgeUse → Option UInt8) (past : List CartridgeUse) : Option UInt8 :=
  (past.filterMap tells).getLast?

/-- The uses since the last reset. -/
def sinceReset (past : List CartridgeUse) : List CartridgeUse :=
  (past.reverse.takeWhile (· ≠ .reset)).reverse

theorem latest_concat (tells : CartridgeUse → Option UInt8) (past : List CartridgeUse)
    (u : CartridgeUse) : latest tells (past ++ [u]) = (tells u).or (latest tells past) := by
  rw [latest, List.filterMap_append, latest]
  cases h : tells u with
  | none => simp [h]
  | some byte => simp [h]

theorem sinceReset_concat (past : List CartridgeUse) (u : CartridgeUse) :
    sinceReset (past ++ [u]) = if u = .reset then [] else sinceReset past ++ [u] := by
  rw [sinceReset, List.reverse_append]
  by_cases h : u = .reset
  · simp [h]
  · simp [h, sinceReset]

/-! ### Several cartridges -/

/-- What can be done among several cartridges, which go by their numbers. -/
inductive Handling where
  | use (i : Nat) (u : CartridgeUse)
  /-- makes a copy of a cartridge, which gets the next number -/
  | clone (i : Nat)
  deriving DecidableEq, Repr

namespace Handling

def apply {κ : Type} [Cartridge κ] (carts : List κ) : Handling → List κ
  | use i u => carts.modify i u.apply
  | clone i => carts ++ carts[i]?.toList

def applyAll {κ : Type} [Cartridge κ] (cart : κ) (l : List Handling) : List κ :=
  l.foldl apply [cart]

/-- How many cartridges one has become, the latest handling coming first. -/
def count : List Handling → Nat
  | [] => 1
  | use _ _ :: earlier => count earlier
  | clone i :: earlier => if i < count earlier then count earlier + 1 else count earlier

/-- What has been done to a cartridge, the latest handling coming first: a copy has the past of the
cartridge that it was made of. -/
def past : List Handling → Nat → List CartridgeUse
  | [], _ => []
  | use j u :: earlier, i => if j = i then past earlier i ++ [u] else past earlier i
  | clone j :: earlier, i => if i = count earlier then past earlier j else past earlier i

end Handling

/-! ### Chips -/

theorem ProgramRom.getElem?_read (rom : ProgramRom) (offset : Nat) :
    rom.bytes.toArray[offset % (0x4000 * rom.banks)]? = some (rom.read offset) := by
  have hlt : offset % (0x4000 * rom.banks) < 0x4000 * rom.banks :=
    Nat.mod_lt offset (Nat.mul_pos (by decide) rom.banks_pos)
  rw [Array.getElem?_eq_getElem (by rwa [rom.bytes.size_toArray])]
  rfl

theorem ProgramRom.getElem?_readBank (rom : ProgramRom) (bank : Fin rom.banks)
    (address : UInt16) :
    rom.bytes.toArray[0x4000 * bank.val + address.toNat % 0x4000]? =
      some (rom.readBank bank address) := by
  have hlt : 0x4000 * bank.val + address.toNat % 0x4000 < 0x4000 * rom.banks :=
    rom.offset_lt bank (ProgramRom.bankOffset address)
  rw [Array.getElem?_eq_getElem (by rwa [rom.bytes.size_toArray])]
  rfl

namespace PatternChip

variable {chip : PatternChip}

theorem getElem?_read (chip : PatternChip) (address : UInt16) :
    chip.bytes.toArray[address.toNat % (0x2000 * chip.banks)]? = some (chip.read address) := by
  have hlt : address.toNat % (0x2000 * chip.banks) < 0x2000 * chip.banks := chip.index_lt address
  rw [Array.getElem?_eq_getElem (by rwa [chip.bytes.size_toArray])]
  rfl

/-- The address below `0x2000` at which a single bank shows the same cell. -/
def cellAddress (address : UInt16) : UInt16 := .ofNat (address.toNat % 0x2000)

theorem toNat_cellAddress (address : UInt16) :
    (cellAddress address).toNat = address.toNat % 0x2000 := by
  have := address.toNat_lt
  rw [cellAddress, UInt16.toNat_ofNat']
  omega

/-- What a use of the cartridge makes of its pattern chip. -/
def after (chip : PatternChip) : CartridgeUse → PatternChip
  | .writePattern address byte => chip.write address byte
  | _ => chip

theorem after_keeps (chip : PatternChip) (u : CartridgeUse) :
    (chip.after u).banks = chip.banks ∧ (chip.after u).writable = chip.writable := by
  cases u with
  | writePattern address byte =>
    simp only [after, write]
    split <;> exact ⟨rfl, rfl⟩
  | _ => exact ⟨rfl, rfl⟩

theorem after_of_not_writable (h : chip.writable = false) (u : CartridgeUse) :
    chip.after u = chip := by
  cases u with
  | writePattern address byte => simp [after, write, h]
  | _ => rfl

theorem read_after (hbanks : chip.banks = 1) (hwritable : chip.writable = true)
    (u : CartridgeUse) (address : UInt16) :
    (chip.after u).read address =
      (writtenPattern (cellAddress address) u).getD (chip.read address) := by
  obtain ⟨banks, pos, bytes, writable⟩ := chip
  subst hbanks hwritable
  cases u with
  | writePattern address' byte =>
    have hsame : address' = cellAddress address ↔ address'.toNat = address.toNat % 0x2000 := by
      rw [← toNat_cellAddress, UInt16.toNat_inj]
    have hin : address' < 0x2000 ↔ address'.toNat < 0x2000 := UInt16.lt_iff_toNat_lt
    simp only [after, write, writtenPattern, Bool.true_and, decide_eq_true_eq]
    by_cases hlt : address'.toNat < 0x2000
    · rw [if_pos (hin.mpr hlt)]
      unfold read
      simp only [Vector.getElem_set, patternBankSize, Nat.mul_one, Nat.mod_eq_of_lt hlt]
      by_cases heq : address'.toNat = address.toNat % 0x2000
      · rw [if_pos heq, if_pos (hsame.mpr heq)]
        rfl
      · rw [if_neg heq, if_neg (mt hsame.mp heq)]
        rfl
    · have hne : address' ≠ cellAddress address := by
        intro heq
        have := hsame.mp heq
        omega
      rw [if_neg (mt hin.mp hlt), if_neg hne]
      rfl
  | _ => rfl

end PatternChip

/-! ### Boards -/

theorem run_concat {κ : Type} [Cartridge κ] (cart : κ) (past : List CartridgeUse)
    (u : CartridgeUse) : run cart (past ++ [u]) = u.apply (run cart past) := by
  rw [run, List.foldl_append]
  rfl

namespace Nrom

variable {c : Nrom}

theorem isRam_iff {address : UInt16} :
    isRam address = true ↔ 0x6000 ≤ address ∧ address < 0x8000 := by
  simp [isRam]

/-- The work memory shows no cell at two addresses. -/
theorem ramIndex_inj {address address' : UInt16} (h : isRam address = true)
    (h' : isRam address' = true) :
    (ramIndex address').val = (ramIndex address).val ↔ address' = address := by
  simp only [isRam_iff, UInt16.le_iff_toNat_le, UInt16.lt_iff_toNat_lt] at h h'
  have hlow : (0x6000 : UInt16).toNat = 0x6000 := rfl
  have hhigh : (0x8000 : UInt16).toNat = 0x8000 := rfl
  show address'.toNat % 0x2000 = address.toNat % 0x2000 ↔ _
  rw [← UInt16.toNat_inj]
  omega

theorem read_of_ram {address : UInt16} (h : isRam address = true) (c : Nrom) :
    c.read address = c.ram.get (ramIndex address) := if_pos h

theorem read_apply {address : UInt16} (h : isRam address = true) (c : Nrom) (u : CartridgeUse) :
    (u.apply c).read address = (u.written address).getD (c.read address) := by
  cases u with
  | write address' byte =>
    show (c.write address' byte).read address = _
    rw [written]
    by_cases h' : isRam address' = true
    · have hwrite : c.write address' byte = { c with ram := c.ram.set (ramIndex address') byte } :=
        if_pos h'
      rw [hwrite, read_of_ram h, read_of_ram h]
      show (c.ram.set (ramIndex address').val byte)[(ramIndex address).val] = _
      rw [Vector.getElem_set]
      by_cases heq : address' = address
      · rw [if_pos ((ramIndex_inj h h').mpr heq), if_pos heq]
        rfl
      · rw [if_neg (mt (ramIndex_inj h h').mp heq), if_neg heq]
        rfl
    · have hwrite : c.write address' byte = c := if_neg h'
      have hne : address' ≠ address := fun heq => h' (heq ▸ h)
      rw [hwrite, if_neg hne]
      rfl
  | _ => rfl

theorem read_run {address : UInt16} (h : isRam address = true) (c : Nrom)
    (past : List CartridgeUse) :
    (run c past).read address = (latest (written address) past).getD (c.read address) := by
  induction past using List.reverseRecOn with
  | nil => rfl
  | append_singleton past u ih =>
    rw [run_concat, read_apply h, ih, latest_concat]
    cases u.written address <;> rfl

end Nrom

namespace Uxrom

theorem bankAt_val (rom : ProgramRom) (n : Nat) : (rom.bankAt n).val = min n (rom.banks - 1) := by
  have := rom.banks_pos
  unfold ProgramRom.bankAt
  split
  · show n = _
    omega
  · show rom.banks - 1 = _
    omega

/-- A use chooses the bank that it asks for, and a reset the first one. -/
theorem bank_apply (c : Uxrom) (u : CartridgeUse) :
    (u.apply c).program = c.program ∧ (u.apply c).bank.val =
      if u = .reset then 0
      else u.asked.elim c.bank.val fun byte => min (byte &&& 0x0F).toNat (c.program.banks - 1) := by
  cases u with
  | write address byte =>
    show (c.write address byte).program = _ ∧ (c.write address byte).bank.val = _
    rw [if_neg nofun]
    by_cases h : 0x8000 ≤ address
    · have hwrite : c.write address byte =
          { c with bank := c.program.bankAt (requested byte) } := if_pos h
      have hasked : (CartridgeUse.write address byte).asked = some byte := if_pos h
      rw [hwrite, hasked]
      exact ⟨rfl, bankAt_val ..⟩
    · have hwrite : c.write address byte = c := if_neg h
      have hasked : (CartridgeUse.write address byte).asked = none := if_neg h
      rw [hwrite, hasked]
      exact ⟨rfl, rfl⟩
  | writePattern address byte => exact ⟨rfl, rfl⟩
  | reset => exact ⟨rfl, rfl⟩

/-- The bank in view is the one last asked for since the last reset. -/
theorem bank_run {c : Uxrom} (h : c.bank.val = 0) (past : List CartridgeUse) :
    (run c past).program = c.program ∧ (run c past).bank.val =
      (latest asked (sinceReset past)).elim 0
        fun byte => min (byte &&& 0x0F).toNat (c.program.banks - 1) := by
  induction past using List.reverseRecOn with
  | nil => exact ⟨rfl, h⟩
  | append_singleton past u ih =>
    obtain ⟨hprogram, hbank⟩ := bank_apply (run c past) u
    rw [run_concat, sinceReset_concat]
    refine ⟨hprogram.trans ih.1, hbank.trans ?_⟩
    rw [ih.2, ih.1]
    split
    · rfl
    · rw [latest_concat]
      cases u.asked <;> rfl

end Uxrom

namespace Board

/-- The board's work memory holds nothing, and its first bank is in view. -/
def Fresh : Board → Prop
  | nrom c => c.ram = .replicate _ 0
  | uxrom c => c.bank.val = 0

theorem apply_nrom (c : Nrom) (u : CartridgeUse) : u.apply (nrom c) = nrom (u.apply c) := by
  cases u <;> rfl

theorem apply_uxrom (c : Uxrom) (u : CartridgeUse) : u.apply (uxrom c) = uxrom (u.apply c) := by
  cases u <;> rfl

theorem run_nrom (c : Nrom) (past : List CartridgeUse) : run (nrom c) past = nrom (run c past) := by
  induction past using List.reverseRecOn with
  | nil => rfl
  | append_singleton past u ih => rw [run_concat, ih, apply_nrom, run_concat]

theorem run_uxrom (c : Uxrom) (past : List CartridgeUse) :
    run (uxrom c) past = uxrom (run c past) := by
  induction past using List.reverseRecOn with
  | nil => rfl
  | append_singleton past u ih => rw [run_concat, ih, apply_uxrom, run_concat]

theorem board?_fresh {header : Header} {program : ProgramRom} {pattern : PatternChip}
    {board : Board} (h : Image.board? header program pattern = some board) : board.Fresh := by
  unfold Image.board? at h
  split at h <;> cases h
  · rfl
  · rfl

theorem apply_program (board : Board) (u : CartridgeUse) :
    (u.apply board).program = board.program := by
  cases board with
  | nrom c =>
    cases u with
    | write address byte =>
      show (c.write address byte).program = c.program
      unfold Nrom.write
      split <;> rfl
    | _ => rfl
  | uxrom c =>
    rw [apply_uxrom]
    exact (Uxrom.bank_apply c u).1

theorem apply_pattern (board : Board) (u : CartridgeUse) :
    (u.apply board).pattern = board.pattern.after u := by
  cases board with
  | nrom c =>
    cases u with
    | write address byte =>
      show (c.write address byte).pattern = c.pattern
      unfold Nrom.write
      split <;> rfl
    | _ => rfl
  | uxrom c =>
    cases u with
    | write address byte =>
      show (c.write address byte).pattern = c.pattern
      unfold Uxrom.write
      split <;> rfl
    | _ => rfl

theorem run_program (board : Board) (past : List CartridgeUse) :
    (run board past).program = board.program := by
  induction past using List.reverseRecOn with
  | nil => rfl
  | append_singleton past u ih => rw [run_concat, apply_program, ih]

theorem run_pattern_of_not_writable {board : Board} (h : board.pattern.writable = false)
    (past : List CartridgeUse) : (run board past).pattern = board.pattern := by
  induction past using List.reverseRecOn with
  | nil => rfl
  | append_singleton past u ih =>
    rw [run_concat, apply_pattern, ih, PatternChip.after_of_not_writable h]

theorem run_pattern_of_writable {board : Board} (hbanks : board.pattern.banks = 1)
    (hwritable : board.pattern.writable = true) (past : List CartridgeUse) (address : UInt16) :
    (run board past).pattern.banks = 1 ∧ (run board past).pattern.writable = true ∧
      (run board past).pattern.read address =
        (latest (writtenPattern (PatternChip.cellAddress address)) past).getD
          (board.pattern.read address) := by
  induction past using List.reverseRecOn with
  | nil => exact ⟨hbanks, hwritable, rfl⟩
  | append_singleton past u ih =>
    obtain ⟨ihbanks, ihwritable, ihread⟩ := ih
    obtain ⟨hbanks', hwritable'⟩ := (run board past).pattern.after_keeps u
    rw [run_concat, apply_pattern]
    refine ⟨hbanks'.trans ihbanks, hwritable'.trans ihwritable, ?_⟩
    rw [PatternChip.read_after ihbanks ihwritable, ihread, latest_concat]
    cases writtenPattern (PatternChip.cellAddress address) u <;> rfl

end Board

/-! ### What the file says -/

namespace ImageFile

def programData (file : Array UInt8) : Array UInt8 :=
  file.extract (programStart file) (patternStart file)

def patternData (file : Array UInt8) : Array UInt8 :=
  file.extract (patternStart file) (dataEnd file)

/-- What the processor reads on a plain board: work memory, which nothing but a write changes, and
the program, which a single bank shows twice. -/
def plainByte (file : Array UInt8) (past : List CartridgeUse) (address : UInt16) : Option UInt8 :=
  if address < 0x6000 then some 0
  else if address < 0x8000 then some ((latest (written address) past).getD 0)
  else if programBanks file = 1 then (programData file)[(address.toNat - 0x8000) % 16384]?
  else (programData file)[address.toNat - 0x8000]?

/-- The bank last asked for since the last reset; the last bank stands in for those that the board
does not have. -/
def chosenBank (file : Array UInt8) (past : List CartridgeUse) : Nat :=
  match latest asked (sinceReset past) with
  | none => 0
  | some byte => min (byte &&& 15).toNat (programBanks file - 1)

def bankedByte (file : Array UInt8) (past : List CartridgeUse) (address : UInt16) : Option UInt8 :=
  if address < 0x8000 then some 0
  else if address < 0xC000 then
    (programData file)[16384 * chosenBank file past + (address.toNat - 0x8000)]?
  else (programData file)[16384 * (programBanks file - 1) + (address.toNat - 0xC000)]?

def processorByte (file : Array UInt8) (past : List CartridgeUse) (address : UInt16) :
    Option UInt8 :=
  if mapper file = 0 then plainByte file past address else bankedByte file past address

/-- The byte at a place of the pattern data, or of the memory that stands in for them. -/
def patternCell (file : Array UInt8) (past : List CartridgeUse) (i : Nat) : Option UInt8 :=
  if patternBanks file = 0 then some ((latest (writtenPattern (.ofNat i)) past).getD 0)
  else (patternData file)[i]?

/-- What the pattern tables read as at an address.  They end at `0x2000`, but a bank-switching board
does not look at the upper bits of the address. -/
def patternByte (file : Array UInt8) (past : List CartridgeUse) (address : UInt16) :
    Option UInt8 :=
  if address < 0x2000 then patternCell file past address.toNat
  else if mapper file = 0 then some 0
  else patternCell file past (address.toNat % (8192 * max 1 (patternBanks file)))

variable {file : Array UInt8} {board : Board}

namespace Accepted

/-- The board in an accepted file is a fresh one that holds what the file says. -/
theorem fresh {image : Image} (h : Image.parse file = .ok image) :
    Accepted file ∧ Describes file image.board ∧ image.board.Fresh := by
  have ha : Accepted file := by
    rw [← failed_eq_none]
    cases hfailed : failed file with
    | none => rfl
    | some check =>
      rw [parse_of_failed hfailed] at h
      cases h
  obtain ⟨board, hboard, hdescribes⟩ := ha.parse
  cases Except.ok.inj (hboard.symm.trans h)
  refine ⟨ha, hdescribes, ?_⟩
  rw [parse_of_header ha.header_parse ha.header_dataEnd_le] at hboard
  split at hboard
  · rename_i board' hsome
    cases hboard
    exact Board.board?_fresh hsome
  · cases hboard

end Accepted

/-! ### Fresh boards and what has been done to them -/

theorem plainByte_of_describes {c : Nrom} (h : Describes file (.nrom c))
    (hfresh : (Board.nrom c).Fresh) (past : List CartridgeUse) (address : UInt16) :
    plainByte file past address = some ((run c past).read address) := by
  have hprogram : (run c past).program = c.program := by
    have hrun := Board.run_program (.nrom c) past
    rw [Board.run_nrom] at hrun
    exact hrun
  have hdata : c.program.bytes.toArray = programData file := h.program
  have hbanks : c.program.banks = programBanks file := h.programBanks
  unfold plainByte
  by_cases hlow : address < 0x6000
  · have hram : ¬ Nrom.isRam address = true := fun hram =>
      UInt16.not_le.mpr hlow (Nrom.isRam_iff.mp hram).1
    have hrom : ¬ 0x8000 ≤ address :=
      UInt16.not_le.mpr (UInt16.lt_trans hlow (by decide))
    rw [if_pos hlow, Nrom.read, if_neg hram, if_neg hrom]
  rw [if_neg hlow]
  by_cases hmid : address < 0x8000
  · have hram : Nrom.isRam address = true := Nrom.isRam_iff.mpr ⟨UInt16.not_lt.mp hlow, hmid⟩
    have hzero : c.read address = 0 := by
      have hblank : c.ram = .replicate _ 0 := hfresh
      rw [Nrom.read_of_ram hram, hblank]
      exact Vector.getElem_replicate _
    rw [if_pos hmid, Nrom.read_run hram, hzero]
  · have hram : ¬ Nrom.isRam address = true := fun hram => hmid (Nrom.isRam_iff.mp hram).2
    have hread : (run c past).read address = c.program.read (address.toNat - 0x8000) := by
      rw [Nrom.read, if_neg hram, if_pos (UInt16.not_lt.mp hmid), hprogram]
    have hlt : address.toNat - 0x8000 < 2 * 0x4000 := by
      have := address.toNat_lt
      omega
    rw [if_neg hmid, hread, ← ProgramRom.getElem?_read, hdata, hbanks]
    by_cases hone : programBanks file = 1
    · rw [if_pos hone, hone]
    · -- with two banks or more no address of the processor lies beyond the program
      have hpos := c.program.banks_pos
      have hin : address.toNat - 0x8000 < 0x4000 * programBanks file := by omega
      rw [if_neg hone, Nat.mod_eq_of_lt hin]

theorem bankedByte_of_describes {c : Uxrom} (h : Describes file (.uxrom c))
    (hfresh : (Board.uxrom c).Fresh) (past : List CartridgeUse) (address : UInt16) :
    bankedByte file past address = some ((run c past).read address) := by
  obtain ⟨hprogram, hbank⟩ := Uxrom.bank_run hfresh past
  have hdata : (run c past).program.bytes.toArray = programData file := by
    rw [hprogram]
    exact h.program
  have hbanks : (run c past).program.banks = programBanks file := by
    rw [hprogram]
    exact h.programBanks
  have hchosen : (run c past).bank.val = chosenBank file past := by
    rw [hbank, ← hprogram, hbanks, chosenBank]
    cases latest asked (sinceReset past) <;> rfl
  have hnat := address.toNat_lt
  unfold bankedByte Uxrom.read
  by_cases hlow : address < 0x8000
  · have hfixed : ¬ 0xC000 ≤ address := UInt16.not_le.mpr (UInt16.lt_trans hlow (by decide))
    rw [if_pos hlow, if_neg hfixed, if_neg (UInt16.not_le.mpr hlow)]
  have hle : 0x8000 ≤ address.toNat := UInt16.le_iff_toNat_le.mp (UInt16.not_lt.mp hlow)
  rw [if_neg hlow]
  by_cases hmid : address < 0xC000
  · have hlt : address.toNat < 0xC000 := UInt16.lt_iff_toNat_lt.mp hmid
    have hoffset : address.toNat % 0x4000 = address.toNat - 0x8000 := by omega
    rw [if_pos hmid, if_neg (UInt16.not_le.mpr hmid), if_pos (UInt16.not_lt.mp hlow),
      ← ProgramRom.getElem?_readBank, hdata, hchosen, hoffset]
  · have hge : 0xC000 ≤ address.toNat := UInt16.le_iff_toNat_le.mp (UInt16.not_lt.mp hmid)
    have hoffset : address.toNat % 0x4000 = address.toNat - 0xC000 := by omega
    have hlast : (run c past).program.lastBank.val = programBanks file - 1 :=
      congrArg (· - 1) hbanks
    rw [if_neg hmid, if_pos (UInt16.not_lt.mp hmid), ← ProgramRom.getElem?_readBank, hdata,
      hlast, hoffset]

theorem patternBanks_of_describes (ha : Accepted file) (h : Describes file board) :
    board.pattern.banks = max 1 (patternBanks file) := by
  have hsize : board.pattern.bytes.toArray.size = 0x2000 * board.pattern.banks :=
    board.pattern.bytes.size_toArray
  rw [h.pattern] at hsize
  by_cases hzero : patternBanks file = 0
  · rw [if_pos hzero, Array.size_replicate] at hsize
    omega
  · have hend := ha.dataEnd
    rw [if_neg hzero, Array.size_extract] at hsize
    unfold dataEnd dataSize patternStart at *
    omega

theorem patternCell_of_describes (ha : Accepted file) (h : Describes file board)
    (past : List CartridgeUse) (address : UInt16) :
    patternCell file past (address.toNat % (8192 * max 1 (patternBanks file))) =
      some ((run board past).pattern.read address) := by
  have hbanks := patternBanks_of_describes ha h
  unfold patternCell
  by_cases hzero : patternBanks file = 0
  · have hwritable : board.pattern.writable = true := by simp [h.writable, hzero]
    have hone : board.pattern.banks = 1 := by rw [hbanks, hzero]; rfl
    have hblank : board.pattern.read address = 0 := by
      have hread := board.pattern.getElem?_read address
      rw [h.pattern, if_pos hzero, hone, Array.getElem?_replicate,
        if_pos (Nat.mod_lt _ (by decide))] at hread
      exact (Option.some.inj hread).symm
    rw [if_pos hzero, hzero, (Board.run_pattern_of_writable hone hwritable past address).2.2,
      hblank]
    rfl
  · have hwritable : board.pattern.writable = false := by
      rw [h.writable]
      exact beq_eq_false_iff_ne.mpr hzero
    rw [if_neg hzero, Board.run_pattern_of_not_writable hwritable, ← PatternChip.getElem?_read,
      h.pattern, if_neg hzero, hbanks]
    rfl

theorem processorByte_of_describes (h : Describes file board) (hfresh : board.Fresh)
    (past : List CartridgeUse) (address : UInt16) :
    processorByte file past address = some (Cartridge.read (run board past) address) := by
  cases board with
  | nrom c =>
    have hmapper : mapper file = 0 := h.mapper.symm
    rw [processorByte, if_pos hmapper, Board.run_nrom]
    exact plainByte_of_describes h hfresh past address
  | uxrom c =>
    have hmapper : mapper file = 2 := h.mapper.symm
    rw [processorByte, if_neg (by rw [hmapper]; decide), Board.run_uxrom]
    exact bankedByte_of_describes h hfresh past address

theorem patternByte_of_describes (ha : Accepted file) (h : Describes file board)
    (past : List CartridgeUse) (address : UInt16) :
    patternByte file past address = some (Cartridge.readPattern (run board past) address) := by
  have hcell := patternCell_of_describes ha h past address
  rw [patternByte]
  by_cases hlt : address < 0x2000
  · have hnat : address.toNat < 0x2000 := UInt16.lt_iff_toNat_lt.mp hlt
    have hread : Cartridge.readPattern (run board past) address =
        (run board past).pattern.read address := by
      cases board with
      | nrom c =>
        rw [Board.run_nrom]
        exact if_pos hlt
      | uxrom c =>
        rw [Board.run_uxrom]
        rfl
    rw [Nat.mod_eq_of_lt (by omega)] at hcell
    rw [if_pos hlt, hread, hcell]
  · rw [if_neg hlt]
    cases board with
    | nrom c =>
      have hmapper : mapper file = 0 := h.mapper.symm
      rw [if_pos hmapper, Board.run_nrom]
      exact congrArg some (if_neg hlt).symm
    | uxrom c =>
      have hmapper : mapper file = 2 := h.mapper.symm
      rw [Board.run_uxrom] at hcell ⊢
      rw [if_neg (by rw [hmapper]; decide)]
      exact hcell

end ImageFile

/-! ### Several cartridges, from one -/

namespace Handling

variable {κ : Type} [Cartridge κ]

theorem applyAll_concat (cart : κ) (l : List Handling) (op : Handling) :
    applyAll cart (l ++ [op]) = apply (applyAll cart l) op := by
  rw [applyAll, List.foldl_append]
  rfl

/-- Each of the cartridges that one has become is where its own past takes the first one. -/
theorem getElem?_applyAll (cart : κ) (l : List Handling) :
    (applyAll cart l).length = count l.reverse ∧
      ∀ i < count l.reverse, (applyAll cart l)[i]? = some (run cart (past l.reverse i)) := by
  induction l using List.reverseRecOn with
  | nil =>
    refine ⟨rfl, fun i hi => ?_⟩
    obtain rfl : i = 0 := Nat.lt_one_iff.mp hi
    rfl
  | append_singleton l op ih =>
    obtain ⟨ihlength, ihget⟩ := ih
    rw [applyAll_concat, List.reverse_append, List.reverse_singleton, List.singleton_append]
    cases op with
    | use j u =>
      refine ⟨(List.length_modify ..).trans ihlength, fun i hi => ?_⟩
      rw [apply, List.getElem?_modify, ihget i hi, past]
      by_cases hij : j = i
      · rw [if_pos hij, run_concat]
        simp only [hij, if_true, Option.map_eq_map, Option.map_some]
      · simp [hij]
    | clone j =>
      rw [apply, List.length_append, ihlength, count]
      by_cases hj : j < count l.reverse
      · rw [if_pos hj, ihget j hj]
        refine ⟨rfl, fun i hi => ?_⟩
        rw [past]
        by_cases hi' : i = count l.reverse
        · rw [if_pos hi', hi', ← ihlength, Option.toList_some, List.getElem?_concat_length]
        · have hlt : i < count l.reverse := by omega
          rw [if_neg hi', List.getElem?_append_left (by omega), ihget i hlt]
      · have hnone : (applyAll cart l)[j]? = none :=
          List.getElem?_eq_none (by omega)
        rw [if_neg hj, hnone]
        refine ⟨rfl, fun i hi => ?_⟩
        have hne : i ≠ count l.reverse := Nat.ne_of_lt hi
        rw [past, if_neg hne, Option.toList_none, List.append_nil, ihget i hi]

/-- What is done to one cartridge leaves the others as they are, and so does making a copy. -/
theorem apply_of_ne {carts : List κ} {op : Handling} {i : Nat} (hi : i < carts.length)
    (h : ∀ u, op ≠ use i u) : (apply carts op)[i]? = carts[i]? := by
  cases op with
  | use j u =>
    have hij : j ≠ i := by
      rintro rfl
      exact h u rfl
    rw [apply, List.getElem?_modify]
    simp [hij]
  | clone j => exact List.getElem?_append_left hi

end Handling

open ImageFile in
/-- **Cartridges remember their history.**  Of the cartridges that an accepted file has become by
being used and copied, every one reads as its own past says: the reads of the processor and of the
pattern tables lie within the data of the file, and neither a write to read-only data nor what is
done to another copy makes a difference. -/
theorem Image.parse_remembers {file : Array UInt8} {image : Image} (h : parse file = .ok image)
    (l : List Handling) :
    (Handling.applyAll image.board l).length = Handling.count l.reverse ∧
      (∀ (i : Nat) (board : Board), (Handling.applyAll image.board l)[i]? = some board →
        ∀ address,
          processorByte file (Handling.past l.reverse i) address =
              some (Cartridge.read board address) ∧
            patternByte file (Handling.past l.reverse i) address =
              some (Cartridge.readPattern board address)) ∧
      ∀ (op : Handling) (i : Nat), i < Handling.count l.reverse → (∀ u, op ≠ .use i u) →
        (Handling.applyAll image.board (l ++ [op]))[i]? =
          (Handling.applyAll image.board l)[i]? := by
  obtain ⟨haccepted, hdescribes, hfresh⟩ := Accepted.fresh h
  obtain ⟨hlength, hget⟩ := Handling.getElem?_applyAll image.board l
  refine ⟨hlength, fun i board hboard address => ?_, fun op i hi hop => ?_⟩
  · have hi : i < Handling.count l.reverse := by
      rw [← hlength]
      exact (List.getElem?_eq_some_iff.mp hboard).1
    rw [hget i hi] at hboard
    cases hboard
    exact ⟨processorByte_of_describes hdescribes hfresh _ address,
      patternByte_of_describes haccepted hdescribes _ address⟩
  · rw [Handling.applyAll_concat]
    exact Handling.apply_of_ne (by rwa [hlength]) hop

/-- The header of a file with two program banks for a bank-switching board. -/
def switchingHeader : Array UInt8 := #[0x4E, 0x45, 0x53, 0x1A, 2, 0, 0x20, 0, 0, 0, 0, 0, 0, 0, 0, 0]

/-- Two program banks, each of them of one byte throughout. -/
def switchingData : Array UInt8 := .replicate 0x4000 0x11 ++ .replicate 0x4000 0x22

namespace ImageFile

theorem byteAt_append {header data : Array UInt8} {i : Nat} (h : i < header.size) :
    byteAt (header ++ data) i = byteAt header i := by
  rw [byteAt, byteAt, Array.getD_eq_getD_getElem?, Array.getD_eq_getD_getElem?,
    Array.getElem?_append_left h]

theorem switchingHeader_announces (data : Array UInt8) :
    programBanks (switchingHeader ++ data) = 2 ∧ patternBanks (switchingHeader ++ data) = 0 ∧
      mapper (switchingHeader ++ data) = 2 ∧ programStart (switchingHeader ++ data) = 16 := by
  unfold programBanks patternBanks mapper programStart
  rw [byteAt_append (by decide : 4 < switchingHeader.size),
    byteAt_append (by decide : 5 < switchingHeader.size),
    byteAt_append (by decide : 6 < switchingHeader.size),
    byteAt_append (by decide : 7 < switchingHeader.size)]
  decide

theorem switchingHeader_accepted {data : Array UInt8} (h : data.size = 32768) :
    Accepted (switchingHeader ++ data) := by
  obtain ⟨hprogram, hpattern, hmapper, hstart⟩ := switchingHeader_announces data
  have hsize : (switchingHeader ++ data).size = 16 + 32768 := by
    rw [Array.size_append, h]
    rfl
  refine ⟨by omega, ?_, by omega, ?_, .inr hmapper⟩
  · unfold Signed
    rw [byteAt_append (by decide : 0 < switchingHeader.size),
      byteAt_append (by decide : 1 < switchingHeader.size),
      byteAt_append (by decide : 2 < switchingHeader.size),
      byteAt_append (by decide : 3 < switchingHeader.size)]
    decide
  · unfold dataEnd dataSize
    omega

theorem processorByte_switchingHeader {data : Array UInt8} (h : data.size = 32768)
    (past : List CartridgeUse) :
    processorByte (switchingHeader ++ data) past 0x8000 =
      data[16384 * chosenBank (switchingHeader ++ data) past]? := by
  obtain ⟨hprogram, -, hmapper, hstart⟩ := switchingHeader_announces data
  have hdata : programData (switchingHeader ++ data) = data := by
    have hsize : switchingHeader.size = 16 := rfl
    rw [programData, patternStart, hstart, hprogram, Array.extract_append, hsize,
      Array.extract_empty_of_size_le_start (Nat.le_of_eq hsize), Array.empty_append]
    exact Array.extract_eq_self_of_le (by omega)
  rw [processorByte, if_neg (by rw [hmapper]; decide), bankedByte, if_neg (by decide),
    if_pos (by decide), hdata]
  rfl

end ImageFile

open ImageFile in
/-- A copy is made after the second bank was chosen, and then reset: it shows the first bank again,
and the cartridge that it was made of still the second. -/
theorem Image.switching_remembers :
    ∃ image, parse (switchingHeader ++ switchingData) = .ok image ∧
      (Handling.applyAll image.board
        [.use 0 (.write 0x8000 7), .clone 0, .use 1 .reset]).map
          (Cartridge.read · 0x8000) = [0x22, 0x11] := by
  have hsize : switchingData.size = 32768 := by simp [switchingData]
  have hfirst : switchingData[0]? = some 0x11 := by simp [switchingData]
  have hsecond : switchingData[16384]? = some 0x22 := by simp [switchingData]
  generalize switchingData = data at *
  obtain ⟨board, hparse, -⟩ := (switchingHeader_accepted hsize).parse
  refine ⟨_, hparse, ?_⟩
  obtain ⟨hlength, hread, -⟩ := Image.parse_remembers hparse
    [.use 0 (.write 0x8000 7), .clone 0, .use 1 .reset]
  obtain ⟨original, copy, hcarts⟩ := List.length_eq_two.mp hlength
  rw [hcarts] at hread ⊢
  have horiginal : processorByte (switchingHeader ++ data) [.write 0x8000 7] 0x8000 =
      some (Cartridge.read original 0x8000) := (hread 0 original rfl 0x8000).1
  have hcopy : processorByte (switchingHeader ++ data) [.write 0x8000 7, .reset] 0x8000 =
      some (Cartridge.read copy 0x8000) := (hread 1 copy rfl 0x8000).1
  have hchosen : chosenBank (switchingHeader ++ data) [.write 0x8000 7] = 1 := by
    have hasked : latest asked (sinceReset [.write 0x8000 7]) = some 7 := by decide
    rw [chosenBank, hasked, (switchingHeader_announces data).1]
    rfl
  have hreset : chosenBank (switchingHeader ++ data) [.write 0x8000 7, .reset] = 0 := by
    have hasked : latest asked (sinceReset [.write 0x8000 7, .reset]) = none := by decide
    rw [chosenBank, hasked]
  rw [processorByte_switchingHeader hsize, hchosen, Nat.mul_one, hsecond] at horiginal
  rw [processorByte_switchingHeader hsize, hreset, Nat.mul_zero, hfirst] at hcopy
  rw [List.map_cons, List.map_singleton, ← Option.some.inj horiginal, ← Option.some.inj hcopy]

end Famicom
