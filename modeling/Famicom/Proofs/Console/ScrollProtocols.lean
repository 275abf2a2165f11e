import Famicom.Proofs.Bus.DataPort
import Famicom.Proofs.Console.Faultless

/-!
# Setting the scroll position

Four registers share one address under construction, and two of them share a toggle as well.  There
are two ways to set all of it.  Between pictures a program writes the control register, for the
table, and the scroll register twice, for the column and the line.  In the middle of a picture it
writes the address register, the scroll register twice and the address register again, and the last
write puts the position to use.

Both begin with a read of the status register, so that they know how the toggle stands, and neither
depends on anything that has happened before (`Drawing.scroll_set`).  For the first of them that
takes an invariant: the top bit of the address, which none of its writes touches, is never set.
-/

namespace Famicom

open Picture

namespace Picture

theorem toNat_mod_eight_lt (byte : UInt8) : byte.toNat % 8 < 8 := Nat.mod_lt _ (by decide)

theorem toNat_div_eight_lt (byte : UInt8) : byte.toNat / 8 < 32 := by
  have hbyte := byte.toNat_lt
  omega

/-- The position at column `x` and line `y` of a table. -/
def ScrollAddress.scrolled (table x y : UInt8) : ScrollAddress where
  fineY := ⟨y.toNat % 8, toNat_mod_eight_lt y⟩
  tableY := bit table 1
  tableX := bit table 0
  coarseY := ⟨y.toNat / 8, toNat_div_eight_lt y⟩
  coarseX := ⟨x.toNat / 8, toNat_div_eight_lt x⟩

theorem ScrollAddress.toNat_scrolled (table x y : UInt8) :
    (scrolled table x y).toNat =
      4096 * (y.toNat % 8) +
        (1024 * (table.toNat % 4) + (32 * (y.toNat / 8) + x.toNat / 8)) := by
  have hX : (bit table 0).toNat = table.toNat / 1 % 2 := by
    rw [bit_eq_testBit table (by decide), Nat.toNat_testBit]
    rfl
  have hY : (bit table 1).toNat = table.toNat / 2 % 2 := by
    rw [bit_eq_testBit table (by decide), Nat.toNat_testBit]
    rfl
  show x.toNat / 8 + 32 * (y.toNat / 8) + 1024 * (bit table 0).toNat + 2048 * (bit table 1).toNat +
    4096 * (y.toNat % 8) + 32768 * 0 = _
  rw [hX, hY]
  omega

theorem toNat_shiftRight_three (byte : UInt8) : (byte >>> 3).toNat = byte.toNat / 8 := by
  simp [Nat.shiftRight_eq_div_pow]

theorem toNat_and_three (byte : UInt8) : (byte &&& 3).toNat = byte.toNat % 4 := by
  rw [UInt8.toNat_and]
  exact Nat.and_two_pow_sub_one_eq_mod _ 2

theorem ScrollAddress.word_scrolled (table x y : UInt8) :
    (scrolled table x y).word =
      (y &&& 7).toUInt16 <<< 12 ||| (table &&& 3).toUInt16 <<< 10 ||| (y >>> 3).toUInt16 <<< 5 |||
        (x >>> 3).toUInt16 := by
  have hx := x.toNat_lt
  have hy := y.toNat_lt
  have hfine := toNat_and_seven y
  have htable := toNat_and_three table
  have hrow := toNat_shiftRight_three y
  have hcolumn : (x >>> 3).toUInt16.toNat = x.toNat / 8 := toNat_shiftRight_three x
  have hcell : ((y >>> 3).toUInt16 <<< 5 ||| (x >>> 3).toUInt16).toNat =
      32 * (y.toNat / 8) + x.toNat / 8 := by
    rw [toNat_shiftLeft_or _ (n := 32) rfl (by omega) (by omega), hrow, hcolumn]
  have hplace : ((table &&& 3).toUInt16 <<< 10 ||| ((y >>> 3).toUInt16 <<< 5 |||
        (x >>> 3).toUInt16)).toNat =
      1024 * (table.toNat % 4) + (32 * (y.toNat / 8) + x.toNat / 8) := by
    rw [toNat_shiftLeft_or _ (n := 1024) rfl (by omega) (by omega), htable, hcell]
  rw [← UInt16.toNat_inj, UInt16.or_assoc, UInt16.or_assoc,
    toNat_shiftLeft_or _ (n := 4096) rfl (by omega) (by omega), hfine, hplace, ← toNat_scrolled]
  exact UInt16.toNat_ofNat_of_lt' (ScrollAddress.toNat_lt _)

/-- The high byte of an address names a table and clears what lies above; the rest of a position is
then written over. -/
theorem ScrollAddress.scrolled_of_high (table : Fin 4) (x y : UInt8) {low : Nat} (h : low < 256) :
    let p := scrolled (.ofNat table) x y
    { ofNat ((UInt8.ofNat table <<< 2).toNat % 64 * 256 + low) with
      fineY := p.fineY, coarseY := p.coarseY, coarseX := p.coarseX } = p := by
  have hhigh : ∀ table : Fin 4,
      (UInt8.ofNat table <<< 2).toNat % 64 * 256 = 1024 * table.val ∧
        ((table.val / 2 % 2 == 1) = bit (.ofNat table) 1) ∧
        ((table.val % 2 == 1) = bit (.ofNat table) 0) := by
    decide
  obtain ⟨hbyte, htableY, htableX⟩ := hhigh table
  have hX : (1024 * table.val + low) / 1024 = table.val := by omega
  have hY : (1024 * table.val + low) / 2048 = table.val / 2 := by omega
  have hspare : (1024 * table.val + low) / 32768 = 0 := by omega
  simp only [hbyte, ofNat, hX, hY, hspare, htableX, htableY]
  rfl

theorem ScrollAddress.ofNat_low (table x y : UInt8) :
    ofNat ((scrolled table x y).toNat / 256 % 128 * 256 +
      ((y &&& 0xF8) <<< 2 ||| x >>> 3).toNat) = scrolled table x y := by
  have hrow : ∀ y : UInt8, ((y &&& 0xF8) <<< 2).toNat = 2 ^ 5 * (y.toNat / 8 % 8) := by
    decide +kernel
  have hx := x.toNat_lt
  have hy := y.toNat_lt
  have hcolumn : x.toNat / 8 < 2 ^ 5 := by omega
  have hbyte : ((y &&& 0xF8) <<< 2 ||| x >>> 3).toNat =
      2 ^ 5 * (y.toNat / 8 % 8) + x.toNat / 8 := by
    rw [UInt8.toNat_or, hrow, toNat_shiftRight_three, ← Nat.two_pow_add_eq_or_of_lt hcolumn]
  have hsplit : (scrolled table x y).toNat =
      (16 * (y.toNat % 8) + 4 * (table.toNat % 4) + y.toNat / 8 / 8) * 256 +
        (2 ^ 5 * (y.toNat / 8 % 8) + x.toNat / 8) := by
    rw [toNat_scrolled]
    omega
  have hhigh : 16 * (y.toNat % 8) + 4 * (table.toNat % 4) + y.toNat / 8 / 8 < 128 := by omega
  have hlow : 2 ^ 5 * (y.toNat / 8 % 8) + x.toNat / 8 < 256 := by omega
  rw [hbyte]
  refine Eq.trans (congrArg ofNat ?_) (ofNat_toNat _)
  rw [hsplit]
  generalize 16 * (y.toNat % 8) + 4 * (table.toNat % 4) + y.toNat / 8 / 8 = high at hhigh
  omega

/-! ### The two ways -/

namespace Video

variable {κ : Type} [Cartridge κ]

/-- The status register is read, the control register written once, and the scroll register
twice. -/
theorem scroll_by_control (u : Video) (cart : κ) (control x y : UInt8) :
    let u' := (((u.afterRead cart .status).writeRegister .control control).writeRegister
      .scroll x).writeRegister .scroll y
    u'.regs.t = { ScrollAddress.scrolled control x y with spare := u.regs.t.spare } ∧
      u'.regs.fineX = .ofNat (x.toNat % 8) ∧ u'.regs.v = u.regs.v ∧ u'.regs.toggle = false :=
  ⟨rfl, rfl, rfl, rfl⟩

/-- The status register is read, the address register written once, and the scroll register twice,
the line first.  The toggle is set then: a write is still to come. -/
theorem scroll_by_high (u : Video) (cart : κ) (table : Fin 4) (x y : UInt8) :
    let u' := (((u.afterRead cart .status).writeRegister .address
      (UInt8.ofNat table <<< 2)).writeRegister .scroll y).writeRegister .scroll x
    u'.regs.t = .scrolled (.ofNat table) x y ∧ u'.regs.fineX = .ofNat (x.toNat % 8) ∧
      u'.regs.toggle = true := by
  have hlow : u.regs.t.toNat % 256 < 256 := Nat.mod_lt _ (by decide)
  exact ⟨ScrollAddress.scrolled_of_high table x y hlow, rfl, rfl⟩

theorem writeRegister_low {u : Video} {table x y : UInt8} (ht : u.regs.t = .scrolled table x y)
    (htoggle : u.regs.toggle = true) :
    let u' := u.writeRegister .address ((y &&& 0xF8) <<< 2 ||| x >>> 3)
    u'.regs.t = .scrolled table x y ∧ u'.regs.v = u'.regs.t ∧ u'.regs.fineX = u.regs.fineX ∧
      u'.regs.toggle = false := by
  have hlow := ScrollAddress.ofNat_low table x y
  simp only [writeRegister, Registers.writeAddress, htoggle, ht, hlow, if_true, and_self]

end Video

end Picture

/-! ### From any past -/

namespace Drawing

variable {κ σ : Type} [Cartridge κ] [PixelSink σ]

theorem meet_read (r : RegisterAddresses) (name : RegisterName) (d : Drawing κ σ) :
    (d.meet (.read (r.of name))).machine.bus.video =
      d.machine.bus.video.afterRead d.machine.bus.cartridge name := by
  show (d.machine.bus.read (r.of name)).2.video = _
  rw [Bus.read_of_register (r.region name)]

theorem meet_write (r : RegisterAddresses) (name : RegisterName) (byte : UInt8)
    (d : Drawing κ σ) :
    (d.meet (.write (r.of name) byte)).machine.bus.video =
      d.machine.bus.video.writeRegister name byte := by
  show (d.machine.bus.write (r.of name) byte).video = _
  rw [Bus.write_of_register (r.region name)]

/-- **Both ways set the whole scroll position, whatever has happened before.**  Take a machine after
any ticks and accesses, new frames and resets.  A read of the status register, a write to the
control register and two to the scroll register leave an address under construction that is made of
the bytes written and nothing else; the address in use stays as it was.  The other way, through the
address register, builds the same address and puts it to use.  Either leaves the column within the
tile, and a clear toggle. -/
theorem scroll_set (cpu : Processor.Cpu) (cart : κ) (journal : Journal) (sink : σ)
    (l : List PictureEvent) (r : RegisterAddresses) (control x y : UInt8) (table : Fin 4) :
    let d := (powerOn cpu cart journal sink).course l
    let byControl := (d.follow [.read (r.of .status), .write (r.of .control) control,
      .write (r.of .scroll) x, .write (r.of .scroll) y]).regs
    let byAddress := (d.follow [.read (r.of .status),
      .write (r.of .address) (UInt8.ofNat table <<< 2), .write (r.of .scroll) y,
      .write (r.of .scroll) x, .write (r.of .address) ((y &&& 0xF8) <<< 2 ||| x >>> 3)]).regs
    (byControl.t.word = ((y &&& 7).toUInt16 <<< 12 ||| (control &&& 3).toUInt16 <<< 10 |||
          (y >>> 3).toUInt16 <<< 5 ||| (x >>> 3).toUInt16) ∧
        byControl.fineX = x &&& 7 ∧ byControl.v = d.regs.v ∧ byControl.toggle = false) ∧
      byAddress.t.word = ((y &&& 7).toUInt16 <<< 12 ||| UInt16.ofNat table <<< 10 |||
          (y >>> 3).toUInt16 <<< 5 ||| (x >>> 3).toUInt16) ∧
        byAddress.v = byAddress.t ∧ byAddress.fineX = x &&& 7 ∧ byAddress.toggle = false := by
  intro d byControl byAddress
  have hspare : d.regs.t.spare = false := ((Bounded.powerOn cpu cart journal sink).course l).2.regs.t
  have hfine : UInt8.ofNat (x.toNat % 8) = x &&& 7 := by
    rw [← toNat_and_seven, UInt8.ofNat_toNat]
  have htable : ∀ table : Fin 4, (UInt8.ofNat table &&& 3).toUInt16 = UInt16.ofNat table := by
    decide
  constructor
  · obtain ⟨ht, hfineX, hv, htoggle⟩ :=
      d.machine.bus.video.scroll_by_control d.machine.bus.cartridge control x y
    simp only [byControl, follow, List.foldl_cons, List.foldl_nil, regs, meet_write, meet_read]
    rw [ht, hfineX, hv, htoggle, hfine, hspare]
    exact ⟨ScrollAddress.word_scrolled control x y, rfl, rfl, rfl⟩
  · obtain ⟨ht, hfineX, htoggle⟩ :=
      d.machine.bus.video.scroll_by_high d.machine.bus.cartridge table x y
    obtain ⟨ht', hv, hfineX', htoggle'⟩ := Video.writeRegister_low ht htoggle
    simp only [byAddress, follow, List.foldl_cons, List.foldl_nil, regs, meet_write, meet_read]
    rw [hv, ht', hfineX', hfineX, htoggle', hfine, ← htable]
    exact ⟨ScrollAddress.word_scrolled _ x y, rfl, rfl, rfl⟩

end Drawing

end Famicom
