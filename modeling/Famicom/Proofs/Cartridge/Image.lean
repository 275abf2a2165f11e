import Famicom.Cartridge.Image

/-!
# Images are read exactly

A file is a cartridge image exactly if it passes five checks, and a file that does not is refused
for the first of them that it fails (`Image.parse_exact`).  What an accepted file says is written
down here once more, byte by byte and apart from `Header` (`ImageFile`): where its program and its
pattern data lie, which board they are on, and how the nametables are laid out.  Two files that
agree on that are the same cartridge, whatever else is in them.
-/

namespace Famicom

def Board.program : Board → ProgramRom
  | nrom c => c.program
  | uxrom c => c.program

def Board.pattern : Board → PatternChip
  | nrom c => c.pattern
  | uxrom c => c.pattern

namespace ImageFile

/-! ### What a file says -/

def byteAt (file : Array UInt8) (i : Nat) : UInt8 := file.getD i 0

def programBanks (file : Array UInt8) : Nat := (byteAt file 4).toNat

def patternBanks (file : Array UInt8) : Nat := (byteAt file 5).toNat

/-- The program data come after the header, and after the trainer if there is one. -/
def programStart (file : Array UInt8) : Nat := 16 + if bit (byteAt file 6) 2 then 512 else 0

def patternStart (file : Array UInt8) : Nat := programStart file + 16384 * programBanks file

/-- How many bytes of data there have to be. -/
def dataSize (file : Array UInt8) : Nat := 16384 * programBanks file + 8192 * patternBanks file

def dataEnd (file : Array UInt8) : Nat := programStart file + dataSize file

/-- The number of the board, whose halves are the upper halves of two bytes. -/
def mapper (file : Array UInt8) : Nat :=
  16 * ((byteAt file 7).toNat / 16) + (byteAt file 6).toNat / 16

def layout (file : Array UInt8) : Layout :=
  if bit (byteAt file 6) 3 then .fourScreen
  else if bit (byteAt file 6) 0 then .vertical else .horizontal

/-- The file opens with the four bytes of the signature. -/
def Signed (file : Array UInt8) : Prop :=
  byteAt file 0 = 0x4E ∧ byteAt file 1 = 0x45 ∧ byteAt file 2 = 0x53 ∧ byteAt file 3 = 0x1A

instance (file : Array UInt8) : Decidable (Signed file) := inferInstanceAs (Decidable (_ ∧ _))

/-- A check of an image, and how a file that fails it is refused. -/
structure Check where
  holds : Bool
  error : Error
  text : String

def checks (file : Array UInt8) : List Check :=
  [{ holds := 16 ≤ file.size
     error := .invalidImage (.shortHeader file.size)
     text := "invalid iNES image: " ++ s!"{file.size} bytes is too short for an iNES header" },
   { holds := Signed file
     error := .invalidImage .badSignature
     text := "invalid iNES image: Not a iNES file" },
   { holds := 0 < programBanks file
     error := .invalidImage .noProgram
     text := "invalid iNES image: no PRG-ROM banks" },
   { holds := dataEnd file ≤ file.size
     error := .invalidImage (.truncated (dataSize file) (file.size - programStart file))
     text := "invalid iNES image: " ++ s!"expected {dataSize file} bytes of PRG/CHR data, found " ++
       toString (file.size - programStart file) },
   { holds := mapper file = 0 ∨ mapper file = 2
     error := .unsupportedMapper (mapper file)
     text := s!"unsupported iNES mapper {mapper file}" }]

/-- The check that a file fails first, if it fails one. -/
def failed (file : Array UInt8) : Option Check := (checks file).find? (!·.holds)

/-- The board holds what the file says. -/
structure Describes (file : Array UInt8) (board : Board) : Prop where
  mapper : board.mapperNumber = mapper file
  layout : Cartridge.layout board = layout file
  programBanks : board.program.banks = programBanks file
  program : board.program.bytes.toArray = file.extract (programStart file) (patternStart file)
  /-- without pattern banks the board has a blank one -/
  pattern : board.pattern.bytes.toArray =
    if patternBanks file = 0 then .replicate 8192 0
    else file.extract (patternStart file) (dataEnd file)
  writable : board.pattern.writable = (patternBanks file == 0)

/-- The files agree on what they say: on the header's announcements and on the data. -/
structure SaysSame (file other : Array UInt8) : Prop where
  header (i : Nat) (h : i < 8) : byteAt other i = byteAt file i
  long : dataEnd file ≤ other.size
  data (i : Nat) (h : programStart file ≤ i) (h' : i < dataEnd file) :
    byteAt other i = byteAt file i

variable {file other : Array UInt8}

theorem text_of_mem {check : Check} (h : check ∈ checks file) :
    check.error.message = check.text := by
  simp only [checks, List.mem_cons, List.not_mem_nil, or_false] at h
  rcases h with rfl | rfl | rfl | rfl | rfl <;> rfl

/-! ### The header -/

theorem byteAt_eq {i : Nat} (h : i < file.size) : byteAt file i = file[i] := by
  simp [byteAt, h]

/-- The header that a file amounts to. -/
def headerOf (file : Array UInt8) (h : 0 < programBanks file) : Header :=
  .ofBytes (byteAt file 4) (byteAt file 5) (byteAt file 6) (byteAt file 7) h

theorem header_mapper (h : 0 < programBanks file) : (headerOf file h).mapper = mapper file := by
  have hhigh (b : UInt8) : (b &&& 0xF0).toNat = 2 ^ 4 * (b.toNat / 16) := by
    revert b
    decide +kernel
  have hlow (b : UInt8) : (b >>> 4).toNat = b.toNat / 16 := by
    rw [UInt8.toNat_shiftRight]
    exact Nat.shiftRight_eq_div_pow b.toNat 4
  have hlt : (byteAt file 6).toNat / 16 < 2 ^ 4 := by
    have : (byteAt file 6).toNat < 256 := (byteAt file 6).toNat_lt
    omega
  show ((byteAt file 7 &&& (0xF0 : UInt8)) ||| (byteAt file 6 >>> (4 : UInt8))).toNat = _
  rw [UInt8.toNat_or, hhigh, hlow, ← Nat.two_pow_add_eq_or_of_lt hlt]
  rfl

theorem header_dataEnd (h : 0 < programBanks file) : (headerOf file h).dataEnd = dataEnd file :=
  Nat.add_assoc ..

theorem header_parse (hsize : 16 ≤ file.size) :
    Header.parse file =
      if Signed file then
        if h : 0 < programBanks file then .ok (headerOf file h)
        else .error (.invalidImage .noProgram)
      else .error (.invalidImage .badSignature) := by
  have hlong : ¬ file.size < Header.size := Nat.not_lt_of_le hsize
  rw [Header.parse, dif_neg hlong]
  simp only [← byteAt_eq, Header.signature, ne_eq, List.cons.injEq, and_true, ite_not]
  rfl

/-! ### Parsing -/

theorem parse_of_header {header : Header} (h : Header.parse file = .ok header)
    (hend : header.dataEnd ≤ file.size) :
    Image.parse file =
      match Image.board? header (Image.program header file hend)
        (Image.pattern header file hend) with
      | some board => .ok { header, board }
      | none => .error (.unsupportedMapper header.mapper) := by
  rw [Image.parse, h]
  exact dif_pos hend

theorem parse_of_header_error {e : Error} (h : Header.parse file = .error e) :
    Image.parse file = .error e := by
  rw [Image.parse, h]
  rfl

theorem board?_of_known {header : Header} (h : header.mapper = 0 ∨ header.mapper = 2)
    (program : ProgramRom) (pattern : PatternChip) :
    ∃ board, Image.board? header program pattern = some board ∧
      board.mapperNumber = header.mapper ∧ Cartridge.layout board = header.layout ∧
      board.program = program ∧ board.pattern = pattern := by
  unfold Image.board?
  rcases h with h | h <;> rw [h] <;> exact ⟨_, rfl, rfl, rfl, rfl, rfl⟩

theorem board?_of_unknown {header : Header} (h : ¬ (header.mapper = 0 ∨ header.mapper = 2))
    (program : ProgramRom) (pattern : PatternChip) :
    Image.board? header program pattern = none := by
  unfold Image.board?
  split <;> simp_all

theorem pattern_of_banks {header : Header} (hend : header.dataEnd ≤ file.size)
    (h : 0 < header.patternBanks) :
    (Image.pattern header file hend).bytes.toArray =
        file.extract header.patternStart header.dataEnd ∧
      (Image.pattern header file hend).writable = false := by
  rw [Image.pattern, dif_pos h]
  exact ⟨rfl, rfl⟩

theorem pattern_of_no_banks {header : Header} (hend : header.dataEnd ≤ file.size)
    (h : ¬ 0 < header.patternBanks) :
    (Image.pattern header file hend).bytes.toArray = .replicate 8192 0 ∧
      (Image.pattern header file hend).writable = true := by
  rw [Image.pattern, dif_neg h]
  exact ⟨rfl, rfl⟩

theorem parse_of_truncated {header : Header} (h : Header.parse file = .ok header)
    (hend : ¬ header.dataEnd ≤ file.size) :
    Image.parse file = .error (.invalidImage
      (.truncated (header.dataEnd - header.programStart) (file.size - header.programStart))) := by
  rw [Image.parse, h]
  exact dif_neg hend

section Checks

variable (hsize : 16 ≤ file.size)
include hsize

theorem header_of_unsigned (h : ¬ Signed file) :
    Header.parse file = .error (.invalidImage .badSignature) := by
  rw [header_parse hsize, if_neg h]

variable (hsigned : Signed file)
include hsigned

theorem header_of_no_banks (h : ¬ 0 < programBanks file) :
    Header.parse file = .error (.invalidImage .noProgram) := by
  rw [header_parse hsize, if_pos hsigned, dif_neg h]

theorem header_of_banks (h : 0 < programBanks file) :
    Header.parse file = .ok (headerOf file h) := by
  rw [header_parse hsize, if_pos hsigned, dif_pos h]

end Checks

theorem not_refused {p : Prop} [Decidable p] (h : p) : ¬ (!decide p) = true := by simp [h]

theorem refused {p : Prop} [Decidable p] (h : ¬ p) : (!decide p) = true := by simp [h]

/-- A file is refused for the first check that it fails. -/
theorem parse_of_failed {check : Check} (h : failed file = some check) :
    Image.parse file = .error check.error := by
  rw [failed, checks] at h
  by_cases hsize : 16 ≤ file.size
  · rw [List.find?_cons_of_neg (by exact not_refused hsize)] at h
    by_cases hsigned : Signed file
    · rw [List.find?_cons_of_neg (by exact not_refused hsigned)] at h
      by_cases hbanks : 0 < programBanks file
      · rw [List.find?_cons_of_neg (by exact not_refused hbanks)] at h
        have hheader := header_of_banks hsize hsigned hbanks
        by_cases hend : dataEnd file ≤ file.size
        · rw [List.find?_cons_of_neg (by exact not_refused hend)] at h
          by_cases hmapper : mapper file = 0 ∨ mapper file = 2
          · rw [List.find?_cons_of_neg (by exact not_refused hmapper)] at h
            cases h
          · rw [List.find?_cons_of_pos (by exact refused hmapper)] at h
            cases h
            rw [parse_of_header hheader (by rwa [header_dataEnd]),
              board?_of_unknown (by rwa [header_mapper]), header_mapper]
        · rw [List.find?_cons_of_pos (by exact refused hend)] at h
          cases h
          rw [parse_of_truncated hheader (by rwa [header_dataEnd]), header_dataEnd]
          congr 3
          exact Nat.add_sub_cancel_left ..
      · rw [List.find?_cons_of_pos (by exact refused hbanks)] at h
        cases h
        exact parse_of_header_error (header_of_no_banks hsize hsigned hbanks)
    · rw [List.find?_cons_of_pos (by exact refused hsigned)] at h
      cases h
      exact parse_of_header_error (header_of_unsigned hsize hsigned)
  · rw [List.find?_cons_of_pos (by exact refused hsize)] at h
    cases h
    exact parse_of_header_error (dif_pos (Nat.lt_of_not_le hsize))

/-! ### Accepted files -/

/-- The file passes all checks. -/
structure Accepted (file : Array UInt8) : Prop where
  size : 16 ≤ file.size
  signed : Signed file
  banks : 0 < programBanks file
  dataEnd : dataEnd file ≤ file.size
  mapper : mapper file = 0 ∨ mapper file = 2

theorem accepted_iff : Accepted file ↔ ∀ check ∈ checks file, check.holds = true := by
  simp only [checks, List.forall_mem_cons, List.not_mem_nil, decide_eq_true_eq, false_implies,
    implies_true, and_true]
  exact ⟨fun ⟨h₁, h₂, h₃, h₄, h₅⟩ => ⟨h₁, h₂, h₃, h₄, h₅⟩,
    fun ⟨h₁, h₂, h₃, h₄, h₅⟩ => ⟨h₁, h₂, h₃, h₄, h₅⟩⟩

theorem failed_eq_none : failed file = none ↔ Accepted file := by
  rw [accepted_iff, failed, List.find?_eq_none]
  simp

namespace Accepted

theorem header_parse (h : Accepted file) : Header.parse file = .ok (headerOf file h.banks) :=
  header_of_banks h.size h.signed h.banks

theorem header_dataEnd_le (h : Accepted file) : (headerOf file h.banks).dataEnd ≤ file.size := by
  rw [header_dataEnd]
  exact h.dataEnd

theorem pattern (h : Accepted file) :
    (Image.pattern (headerOf file h.banks) file h.header_dataEnd_le).bytes.toArray =
        (if patternBanks file = 0 then .replicate 8192 0
          else file.extract (patternStart file) (ImageFile.dataEnd file)) ∧
      (Image.pattern (headerOf file h.banks) file h.header_dataEnd_le).writable =
        (patternBanks file == 0) := by
  by_cases hzero : patternBanks file = 0
  · obtain ⟨hbytes, hwritable⟩ :=
      pattern_of_no_banks h.header_dataEnd_le (Nat.not_lt.mpr (Nat.le_of_eq hzero))
    rw [hbytes, hwritable, if_pos hzero, hzero]
    exact ⟨rfl, rfl⟩
  · obtain ⟨hbytes, hwritable⟩ := pattern_of_banks h.header_dataEnd_le (Nat.pos_of_ne_zero hzero)
    rw [hbytes, hwritable, if_neg hzero, header_dataEnd]
    exact ⟨rfl, (beq_eq_false_iff_ne.mpr hzero).symm⟩

theorem parse (h : Accepted file) :
    ∃ board, Image.parse file = .ok ⟨headerOf file h.banks, board⟩ ∧ Describes file board := by
  have hmapper : (headerOf file h.banks).mapper = 0 ∨ (headerOf file h.banks).mapper = 2 := by
    rw [header_mapper]
    exact h.mapper
  obtain ⟨board, hboard, hnumber, hlayout, hprogram, hpattern⟩ := board?_of_known hmapper
    (Image.program _ file h.header_dataEnd_le) (Image.pattern _ file h.header_dataEnd_le)
  refine ⟨board, ?_, hnumber.trans (header_mapper _), hlayout, ?_, ?_, ?_, ?_⟩
  · rw [parse_of_header h.header_parse h.header_dataEnd_le, hboard]
  · rw [hprogram]
    rfl
  · rw [hprogram]
    rfl
  · rw [hpattern]
    exact h.pattern.1
  · rw [hpattern]
    exact h.pattern.2

end Accepted

/-! ### What does not matter -/

theorem slice_congr {start size : Nat} (h : start + size ≤ file.size)
    (h' : start + size ≤ other.size)
    (hsame : ∀ i, start ≤ i → i < start + size → byteAt other i = byteAt file i) :
    Image.slice other start size h' = Image.slice file start size h := by
  refine Vector.ext fun i hi => ?_
  have hbyte := hsame (start + i) (by omega) (by omega)
  rw [byteAt_eq (by omega), byteAt_eq (by omega)] at hbyte
  simpa [Image.slice] using hbyte

namespace SaysSame

variable (h : SaysSame file other)
include h

theorem announcements :
    programBanks other = programBanks file ∧ patternBanks other = patternBanks file ∧
      programStart other = programStart file ∧ mapper other = mapper file := by
  unfold programBanks patternBanks programStart mapper
  rw [h.header 4 (by decide), h.header 5 (by decide), h.header 6 (by decide),
    h.header 7 (by decide)]
  exact ⟨rfl, rfl, rfl, rfl⟩

theorem dataEnd_eq : dataEnd other = dataEnd file := by
  obtain ⟨hprogram, hpattern, hstart, -⟩ := h.announcements
  rw [dataEnd, dataEnd, dataSize, dataSize, hprogram, hpattern, hstart]

theorem accepted (ha : Accepted file) : Accepted other := by
  obtain ⟨hprogram, -, -, hmapper⟩ := h.announcements
  refine ⟨?_, ?_, ?_, ?_, ?_⟩
  · have hstart : 16 ≤ dataEnd file := by
      unfold dataEnd programStart
      omega
    exact Nat.le_trans hstart h.long
  · unfold Signed
    rw [h.header 0 (by decide), h.header 1 (by decide), h.header 2 (by decide),
      h.header 3 (by decide)]
    exact ha.signed
  · rw [hprogram]
    exact ha.banks
  · rw [h.dataEnd_eq]
    exact h.long
  · rw [hmapper]
    exact ha.mapper

theorem parse (ha : Accepted file) : Image.parse other = Image.parse file := by
  have hb := h.accepted ha
  have hheader : headerOf other hb.banks = headerOf file ha.banks := by
    unfold headerOf
    congr 1 <;> exact h.header _ (by decide)
  have hend : (headerOf file ha.banks).dataEnd ≤ other.size := by
    rw [header_dataEnd]
    exact h.long
  have hparse : Header.parse other = .ok (headerOf file ha.banks) := by
    rw [hb.header_parse, hheader]
  have hprogram : Image.program _ other hend = Image.program _ file ha.header_dataEnd_le := by
    unfold Image.program
    congr 1
    refine slice_congr _ _ fun i hi hi' => h.data i hi ?_
    have hlt : i < programStart file + 16384 * programBanks file := hi'
    unfold dataEnd dataSize
    omega
  have hpattern : Image.pattern _ other hend = Image.pattern _ file ha.header_dataEnd_le := by
    unfold Image.pattern
    split
    · congr 1
      refine slice_congr _ _ fun i hi hi' => h.data i ?_ ?_
      · have hle : programStart file + 16384 * programBanks file ≤ i := hi
        omega
      · have hlt : i < (headerOf file ha.banks).dataEnd := hi'
        rwa [header_dataEnd] at hlt
    · rfl
  rw [parse_of_header hparse hend, parse_of_header ha.header_parse ha.header_dataEnd_le, hprogram,
    hpattern]

end SaysSame

end ImageFile

open ImageFile in
/-- **Images are read exactly.**  A file is accepted exactly if it passes the five checks, and else
refused for the first that it fails, in the words that belong to it.  The board in an accepted file
holds what the file says, and every other file that says the same is the same image: a trainer, the
rest of the header and what follows the data do not matter. -/
theorem Image.parse_exact (file : Array UInt8) :
    ((∃ image, parse file = .ok image) ↔ ∀ check ∈ checks file, check.holds = true) ∧
      (∀ e, parse file = .error e ↔ ∃ check, failed file = some check ∧ check.error = e) ∧
      (∀ check, failed file = some check → check.error.message = check.text) ∧
      (∀ image, parse file = .ok image → Describes file image.board) ∧
      ∀ image other, parse file = .ok image → SaysSame file other → parse other = .ok image := by
  rw [← accepted_iff]
  have haccepted {image : Image} (h : parse file = .ok image) : Accepted file := by
    rw [← failed_eq_none]
    cases hfailed : failed file with
    | none => rfl
    | some check =>
      rw [parse_of_failed hfailed] at h
      cases h
  refine ⟨⟨fun ⟨image, h⟩ => haccepted h, fun h => ?_⟩, fun e => ⟨fun h => ?_, ?_⟩,
    fun check h => text_of_mem (List.mem_of_find?_eq_some h), fun image h => ?_,
    fun image other h hsame => (hsame.parse (haccepted h)).trans h⟩
  · obtain ⟨board, hboard, -⟩ := h.parse
    exact ⟨_, hboard⟩
  · cases hfailed : failed file with
    | none =>
      obtain ⟨board, hboard, -⟩ := (failed_eq_none.mp hfailed).parse
      rw [hboard] at h
      cases h
    | some check =>
      rw [parse_of_failed hfailed] at h
      cases h
      exact ⟨check, rfl, rfl⟩
  · rintro ⟨check, hfailed, rfl⟩
    exact parse_of_failed hfailed
  · obtain ⟨board, hboard, hdescribes⟩ := (haccepted h).parse
    have himage := Except.ok.inj (hboard.symm.trans h)
    rw [← himage]
    exact hdescribes

end Famicom
