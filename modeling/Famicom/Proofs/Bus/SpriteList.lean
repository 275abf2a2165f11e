import Famicom.Proofs.Bus.Frame
import Mathlib.Data.List.Induction

/-!
# Filling the sprite list

There are two ways to fill the sprite list.  A program writes its bytes to a register, each to the
place that the index names, which every write moves along.  Or it has a page of its memory
transferred at once.  The two leave the same (`Bus.transfer_eq_send`): both begin at the index and
wrap around at the end of the list, and after 256 bytes the index is where it was.

A transfer looks at its bytes without touching them.  So it changes the sprite list and nothing else,
wherever the page lies, and holds the bus for the time that it takes.
-/

namespace Famicom

open Picture

/-! ### The bytes of the list -/

namespace Picture.Memory

theorem spriteByte_set (m : Memory) (i j byte : UInt8) :
    (m.setSpriteByte i byte).spriteByte j = if i = j then byte else m.spriteByte j := by
  simp only [spriteByte, setSpriteByte, Vector.getElem_set, UInt8.toNat_inj]

theorem spriteByte_fill (m : Memory) (first : UInt8) (source : UInt8 → UInt8) (j : UInt8) :
    (m.fillSprites first source).spriteByte j = source (j - first) := by
  simp only [fillSprites_eq, spriteByte, Vector.getElem_ofFn]
  rfl

theorem sprites_ext {m m' : Memory} (h : ∀ j, m.spriteByte j = m'.spriteByte j) :
    m.sprites = m'.sprites := by
  apply Vector.ext
  intro j hj
  have hbyte := h (.ofNat j)
  have hnat : (UInt8.ofNat j).toNat = j := UInt8.toNat_ofNat_of_lt' hj
  simpa only [spriteByte, hnat] using hbyte

end Picture.Memory

/-! ### Byte by byte -/

namespace Bus

variable {κ : Type} [Cartridge κ]

def sendSprites (bytes : List UInt8) (b : Bus κ) : Bus κ := bytes.foldl (·.write 0x2004 ·) b

theorem sendSprites_concat (bytes : List UInt8) (byte : UInt8) (b : Bus κ) :
    b.sendSprites (bytes ++ [byte]) = (b.sendSprites bytes).write 0x2004 byte := by
  rw [sendSprites, List.foldl_append]
  rfl

theorem write_spriteData (byte : UInt8) (b : Bus κ) :
    (b.write 0x2004 byte).video.memory =
        b.video.memory.setSpriteByte b.video.regs.spriteIndex byte ∧
      (b.write 0x2004 byte).video.regs.spriteIndex = b.video.regs.spriteIndex + 1 :=
  ⟨rfl, rfl⟩

theorem sendSprites_index (bytes : List UInt8) (b : Bus κ) :
    (b.sendSprites bytes).video.regs.spriteIndex =
      b.video.regs.spriteIndex + .ofNat bytes.length := by
  induction bytes using List.reverseRecOn with
  | nil => exact (UInt8.add_zero _).symm
  | append_singleton bytes byte ih =>
    rw [sendSprites_concat, (write_spriteData _ _).2, ih, List.length_append, UInt8.ofNat_add,
      UInt8.add_assoc]
    rfl

/-- No byte is written over by those that follow it, as long as they do not go around the whole
list. -/
theorem sendSprites_byte {bytes : List UInt8} (hlength : bytes.length ≤ 256) (b : Bus κ) {i : Nat}
    (hi : i < bytes.length) :
    (b.sendSprites bytes).video.memory.spriteByte (b.video.regs.spriteIndex + .ofNat i) =
      bytes[i] := by
  induction bytes using List.reverseRecOn with
  | nil => cases hi
  | append_singleton bytes byte ih =>
    rw [List.length_append, List.length_singleton] at hlength hi
    rw [sendSprites_concat, (write_spriteData _ _).1, Memory.spriteByte_set, sendSprites_index]
    rcases Nat.lt_succ_iff_lt_or_eq.mp hi with hi | rfl
    · have hne : UInt8.ofNat bytes.length ≠ .ofNat i := by
        intro heq
        have hnat := congrArg UInt8.toNat heq
        rw [UInt8.toNat_ofNat_of_lt' hlength, UInt8.toNat_ofNat_of_lt' (Nat.lt_trans hi hlength)]
          at hnat
        exact Nat.ne_of_gt hi hnat
      rw [if_neg (mt (UInt8.add_right_inj _).mp hne), ih (Nat.le_of_lt hlength) hi,
        List.getElem_append_left]
    · rw [if_pos rfl, List.getElem_concat_length rfl]

/-! ### All at once -/

def pageBytes (b : Bus κ) (page : UInt8) : List UInt8 :=
  (List.range 256).map fun i => b.peek (.ofNat (256 * page.toNat + i))

theorem length_pageBytes (b : Bus κ) (page : UInt8) : (b.pageBytes page).length = 256 := by
  rw [pageBytes, List.length_map, List.length_range]

theorem getElem_pageBytes (b : Bus κ) (page i : UInt8) (h : i.toNat < (b.pageBytes page).length) :
    (b.pageBytes page)[i.toNat] = b.peek (wordOf page i) := by
  simp only [pageBytes, List.getElem_map, List.getElem_range, ← toNat_wordOf, UInt16.ofNat_toNat]

/-- What was at a place of the list is gone, and the byte of the page that has come there is as far
from its beginning as the place is from the index. -/
theorem spriteByte_transfer (b : Bus κ) (page j : UInt8) :
    (b.transfer page).video.memory.spriteByte j =
      b.peek (wordOf page (j - b.video.regs.spriteIndex)) :=
  b.video.memory.spriteByte_fill b.video.regs.spriteIndex (fun i => b.peek (wordOf page i)) j

/-- **A transfer is as good as 256 writes.**  It leaves the list and the index as the bytes of the
page would, written in their order.  Each place of the list holds the byte that has come there, and
beside the list only the time has changed for which the bus has been held. -/
theorem transfer_eq_send (b : Bus κ) (page : UInt8) :
    let b' := b.write 0x4014 page
    let sent := b.sendSprites (b.pageBytes page)
    (b'.video.memory.sprites = sent.video.memory.sprites ∧
        b'.video.regs.spriteIndex = sent.video.regs.spriteIndex) ∧
      (∀ j, b'.video.memory.spriteByte j =
        b.peek (wordOf page (j - b.video.regs.spriteIndex))) ∧
      b' = { b with
        video := { b.video with
          memory := { b.video.memory with sprites := b'.video.memory.sprites } }
        stall := b.stall + 512 } := by
  intro b' sent
  have hlength := b.length_pageBytes page
  have hbytes (j : UInt8) : b'.video.memory.spriteByte j =
      b.peek (wordOf page (j - b.video.regs.spriteIndex)) := b.spriteByte_transfer page j
  have hrest : b' = { b with
      video := { b.video with
        memory := { b.video.memory with sprites := b'.video.memory.sprites } }
      stall := b.stall + 512 } := by
    show b.transfer page = { b with
      video := { b.video with
        memory := { b.video.memory with sprites := (b.transfer page).video.memory.sprites } }
      stall := b.stall + 512 }
    rw [transfer, Video.transfer, Memory.fillSprites_eq]
    rfl
  refine ⟨⟨Memory.sprites_ext fun j => ?_, ?_⟩, hbytes, hrest⟩
  · have hi : (j - b.video.regs.spriteIndex).toNat < (b.pageBytes page).length :=
      hlength ▸ UInt8.toNat_lt _
    have hsent := sendSprites_byte (Nat.le_of_eq hlength) b hi
    rw [UInt8.ofNat_toNat, UInt8.add_comm, UInt8.sub_add_cancel, getElem_pageBytes] at hsent
    rw [hbytes, hsent]
  · rw [sendSprites_index, hlength]
    exact (UInt8.add_zero _).symm

end Bus

end Famicom
