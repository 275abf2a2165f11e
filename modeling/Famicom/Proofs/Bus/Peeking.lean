import Famicom.Proofs.Bus.SpriteList
import Famicom.Proofs.Console.VblankHistory

/-!
# Looking and reading

An address can be looked at (`Bus.peek`) and it can be read (`Bus.read`).  Everywhere but at the two
pads both give the same byte, and a read changes what is behind two registers of the picture unit at
most: the status register forgets the vblank flag and the toggle, and the data register goes on to
the next byte (`Bus.ReadAt`).

A reset and a transfer look at their bytes.  So the processor starts where it would have read that
it has to start, and what is transferred is what it would have read, from every page that has
neither registers nor pads; and all of them see the cartridge through the Game Genie
(`Machine.read_as_peeked`).
-/

namespace Famicom

open Picture

/-! ### Reading an address -/

namespace Bus

variable {κ : Type} {address : UInt16}

/-- From `b` to `b'` nothing has changed that a read of the address has to leave alone. -/
structure ReadAt (address : UInt16) (b b' : Bus κ) : Prop where
  /-- where the status register answers -/
  status (h : answers 2 address = true) : ∃ inVblank toggle, b' = b.setRegs
    { b.video.regs with status := { b.video.regs.status with inVblank }, toggle }
  /-- where the data register answers -/
  data (h : answers 7 address = true) : ∃ readBuffer v, b' = b.setRegs
    { b.video.regs with readBuffer, v }
  /-- everywhere else -/
  elsewhere (hstatus : answers 2 address = false) (hdata : answers 7 address = false) : b' = b

variable [Cartridge κ]

theorem read_eq_peek (h : NoPad address) (b : Bus κ) : (b.read address).1 = b.peek address := by
  unfold read peek
  cases hregion : Region.ofAddress address with
  | register name => simp only [Video.readRegister_eq]
  | pad i => exact absurd (Region.ofAddress_eq_pad hregion) (not_or.mpr h)
  | _ => rfl

theorem readAt_read (h : NoPad address) (b : Bus κ) : ReadAt address b (b.read address).2 := by
  cases hregister : isRegister address with
  | true =>
    have hstatus : answers 2 address = _ := answers_register hregister .status
    have hdata : answers 7 address = _ := answers_register hregister .data
    rw [read_of_register (Region.ofAddress_of_isRegister hregister)]
    constructor <;> simp only [hstatus, hdata, beq_iff_eq, beq_eq_false_iff_ne]
    case status =>
      intro hname
      rw [hname]
      exact ⟨_, _, rfl⟩
    case data =>
      intro hname
      rw [hname]
      exact ⟨_, _, rfl⟩
    case elsewhere =>
      intro hs hd
      cases hname : RegisterName.ofAddress address with
      | status => exact absurd hname hs
      | data => exact absurd hname hd
      | _ => rfl
  | false =>
    have hnone (i : Nat) : answers i address = false := answers_of_not_isRegister hregister i
    have hsame : (b.read address).2 = b := by
      rw [read_of_not_isRegister hregister, read_pads h]
    exact ⟨fun h => absurd (hnone 2) (by simp [h]), fun h => absurd (hnone 7) (by simp [h]),
      fun _ _ => hsame⟩

theorem read_eq_self (hpad : NoPad address) (hregister : isRegister address = false) (b : Bus κ) :
    b.read address = (b.peek address, b) :=
  Prod.ext (read_eq_peek hpad b) ((readAt_read hpad b).elsewhere
    (answers_of_not_isRegister hregister 2) (answers_of_not_isRegister hregister 7))

/-- The cartridge has its addresses to itself, and shows through the Game Genie. -/
theorem peek_cartridge (h : 0x4020 ≤ address) (b : Bus κ) :
    NoPad address ∧ isRegister address = false ∧ b.peek address = b.readCartridge address := by
  have hge {low : UInt16} (hlow : low ≤ 0x4020) : ¬ address < low :=
    UInt16.not_lt.mpr (UInt16.le_trans hlow h)
  have hne {other : UInt16} (hother : ¬ 0x4020 ≤ other) : address ≠ other := by
    rintro rfl
    exact hother h
  have hregister : isRegister address = false := by
    rw [isRegister, decide_eq_false (hge (by decide)), Bool.and_false]
  have hregion : Region.ofAddress address = .cartridge := by
    rw [Region.ofAddress, if_neg (hge (by decide)), if_neg (hge (by decide)), if_pos h]
  refine ⟨⟨hne (by decide), hne (by decide)⟩, hregister, ?_⟩
  rw [peek, hregion]

theorem noPad_of_page {page : UInt8} (h : page < 0x20 ∨ 0x41 ≤ page) (i : UInt8) :
    NoPad (wordOf page i) := by
  have hne {address : UInt16} (hpage : highByte address = 0x40) : wordOf page i ≠ address := by
    rintro rfl
    rw [highByte_wordOf] at hpage
    subst hpage
    exact absurd h (by decide)
  exact ⟨hne rfl, hne rfl⟩

end Bus

/-! ### The processor -/

namespace Machine

open Bus

variable {κ : Type} [Cartridge κ]

theorem exec_read_eq_peek {m : Machine κ} {address : UInt16} (hpad : NoPad address)
    (hwait : Exec.mustWait m address = false) :
    Exec.read address m =
      .ok (m.bus.peek address) { m with bus := (m.bus.read address).2 } := by
  rw [Exec.read_of_not_mustWait hwait, read_eq_peek hpad]

theorem exec_read_eq_self {address : UInt16} (hpad : NoPad address)
    (hregister : isRegister address = false) (m : Machine κ) :
    Exec.read address m = .ok (m.bus.peek address) m := by
  have hwait : Exec.mustWait m address = false := by simp [Exec.mustWait, hregister]
  rw [exec_read_eq_peek hpad hwait, read_eq_self hpad hregister]

/-- **Looking is reading without touching.**  Away from the pads the processor reads what can be
seen, if it need not wait, and leaves alone all but what is behind two registers.  So a reset goes
where the vector reads, and a transfer brings what the page reads as, unless the page is one of
those with registers or pads.  The Game Genie is between the cartridge and all of them. -/
theorem read_as_peeked (m : Machine κ) :
    (∀ address, NoPad address → Exec.mustWait m address = false → ∃ b,
      Exec.read address m = .ok (m.bus.peek address) { m with bus := b } ∧
        ReadAt address m.bus b) ∧
    (∃ low high, Exec.read 0xFFFC m = .ok low m ∧ Exec.read 0xFFFD m = .ok high m ∧
      m.resetCpu.cpu.pc = wordOf high low) ∧
    (∀ page, page < 0x20 ∨ 0x41 ≤ page → ∃ m', Exec.write 0x4014 page m = .ok () m' ∧
      ∀ i, ∃ byte, Exec.read (wordOf page i) m = .ok byte m ∧
        m'.bus.video.memory.spriteByte (m.bus.video.regs.spriteIndex + i) = byte) ∧
    (∀ address g, 0x4020 ≤ address → m.bus.gameGenie = some g →
      Exec.read address m = .ok (g.patch address (Cartridge.read m.bus.cartridge address)) m) := by
  refine ⟨fun address hpad hwait => ?_, ?_, fun page hpage => ?_, fun address g haddress hg => ?_⟩
  · exact ⟨_, exec_read_eq_peek hpad hwait, readAt_read hpad m.bus⟩
  · exact ⟨_, _, exec_read_eq_self (by decide) rfl m, exec_read_eq_self (by decide) rfl m, rfl⟩
  · refine ⟨m.write 0x4014 page, rfl, fun i => ⟨_, ?_, rfl⟩⟩
    rw [show (m.write 0x4014 page).bus = m.bus.transfer page from rfl, spriteByte_transfer,
      UInt8.add_comm, UInt8.add_sub_cancel]
    exact exec_read_eq_self (noPad_of_page hpage i)
      (isRegister_of_page (highByte_wordOf page i) (hpage.imp_right (UInt8.le_trans (by decide)))) m
  · obtain ⟨hpad, hregister, hpeek⟩ := peek_cartridge haddress m.bus
    rw [exec_read_eq_self hpad hregister, hpeek, readCartridge, hg]

/-- A machine with a code on the reset vector, whose data register points into the palette. -/
def coded : Machine Board where
  cpu := {}
  bus := { Bus.plug Board.blank with
    video := ⟨{ Memory.empty .horizontal with palette := .replicate _ 0x2A },
      { v := .ofNat 0x3F05, readBuffer := 0x11 }⟩
    gameGenie := some ⟨0xFFFC, 0x34, none⟩ }

/-- The palette is read at once, at the last of the data register's addresses.  The code is seen by
the processor, by a reset, and by a transfer of the last page. -/
theorem coded_read_as_peeked :
    (NoPad 0x3FFF ∧ Exec.mustWait coded 0x3FFF = false ∧ ∃ b,
      Exec.read 0x3FFF coded = .ok 0x2A { coded with bus := b } ∧ ReadAt 0x3FFF coded.bus b) ∧
    ((0x4020 : UInt16) ≤ 0xFFFC ∧ coded.bus.gameGenie = some ⟨0xFFFC, 0x34, none⟩ ∧
      Exec.read 0xFFFC coded = .ok 0x34 coded ∧ lowByte coded.resetCpu.cpu.pc = 0x34) ∧
    (((0xFF : UInt8) < 0x20 ∨ (0x41 : UInt8) ≤ 0xFF) ∧ ∃ m',
      Exec.write 0x4014 0xFF coded = .ok () m' ∧ m'.bus.video.memory.spriteByte 0xFC = 0x34) := by
  obtain ⟨hread, hreset, htransfer, hcode⟩ := read_as_peeked coded
  have hbyte : Exec.read 0xFFFC coded = .ok 0x34 coded := hcode 0xFFFC _ (by decide) rfl
  refine ⟨⟨by decide, rfl, hread 0x3FFF (by decide) rfl⟩, ⟨by decide, rfl, hbyte, ?_⟩,
    by decide, ?_⟩
  · obtain ⟨low, high, hlow, -, hpc⟩ := hreset
    cases hbyte.symm.trans hlow
    rw [hpc, lowByte_wordOf]
  · obtain ⟨m', hwrite, hbytes⟩ := htransfer 0xFF (by decide)
    obtain ⟨byte, hseen, hlist⟩ := hbytes 0xFC
    cases hbyte.symm.trans hseen
    exact ⟨m', hwrite, hlist⟩

end Machine

end Famicom
