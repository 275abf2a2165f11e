import Famicom.Proofs.Bus.Frame
import Famicom.Proofs.Picture.Cells

/-!
# Through the data register and back

The processor reaches the memory of the picture unit through one register.  It points the register
at an address with two writes, and every access moves the address along by a step.  What it reads
comes late: each read returns what the read before it fetched, so the first one after the register
has been pointed somewhere is for nothing.

A list of bytes that is stored in the nametables in this way, in cells that are all different, comes
back as it was (`Bus.fetch_store`).  The single accesses are equations (`Bus.pointAt_eq`,
`Bus.write_data`, `Bus.read_data`).  By induction over the bytes, storing is a run of writes to the
store of cells (`Bus.store_eq`) and fetching is a look at the same addresses (`Bus.fetch_eq`).
-/

namespace Famicom

open Picture

/-! ### Writes to cells that are all different -/

namespace Picture

theorem Cell.ofAddress_of_tables (layout : Layout) {n : Nat} (hlow : 0x2000 ≤ n)
    (hhigh : n ≤ 0x3EFF) :
    ofAddress layout (.ofNat n) = table (tableAt layout (n - 0x2000)) := by
  have hmod : (UInt16.ofNat n).toNat % 0x4000 = n := by
    rw [UInt16.toNat_ofNat_of_lt' (Nat.lt_of_le_of_lt hhigh (by decide))]
    exact Nat.mod_eq_of_lt (Nat.lt_of_le_of_lt hhigh (by decide))
  unfold ofAddress
  simp only [hmod]
  rw [dif_neg (Nat.not_lt.mpr hlow), if_pos (Nat.lt_of_le_of_lt hhigh (by decide))]

theorem Cell.latest_of_not_mem {cell : Cell} {writes : List (Cell × UInt8)}
    (h : cell ∉ writes.map Prod.fst) : cell.latest writes = none := by
  induction writes with
  | nil => rfl
  | cons w writes ih =>
    rw [List.map_cons, List.mem_cons, not_or] at h
    rw [latest_cons, ih h.2, if_neg (Ne.symm h.1)]
    rfl

theorem Cell.latest_of_mem {cell : Cell} {byte : UInt8} {writes : List (Cell × UInt8)}
    (hnodup : (writes.map Prod.fst).Nodup) (h : (cell, byte) ∈ writes) :
    cell.latest writes = some byte := by
  induction writes with
  | nil => cases h
  | cons w writes ih =>
    rw [List.map_cons, List.nodup_cons] at hnodup
    rw [latest_cons]
    rcases List.mem_cons.mp h with rfl | h
    · rw [latest_of_not_mem hnodup.1, if_pos rfl]
      rfl
    · rw [ih hnodup.2 h]
      rfl

namespace MemoryUse

variable {κ : Type} [Cartridge κ]

def writes (addresses : List UInt16) (bytes : List UInt8) : List MemoryUse :=
  List.zipWith write addresses bytes

theorem layoutAfter_writes (layout : Layout) (addresses : List UInt16) (bytes : List UInt8) :
    layoutAfter layout (writes addresses bytes) = layout := by
  induction addresses generalizing bytes with
  | nil => rfl
  | cons address addresses ih =>
    cases bytes with
    | nil => rfl
    | cons byte bytes => exact ih bytes

theorem written_writes (layout : Layout) (addresses : List UInt16) (bytes : List UInt8) :
    written layout (writes addresses bytes) =
      (addresses.map (Cell.ofAddress layout)).zip bytes := by
  induction addresses generalizing bytes with
  | nil => rfl
  | cons address addresses ih =>
    cases bytes with
    | nil => rfl
    | cons byte bytes => exact congrArg ((Cell.ofAddress layout address, byte) :: ·) (ih bytes)

/-- Bytes that are written to nametable cells, to each cell one, are what the addresses read as. -/
theorem map_readMemory_writes (s : Video × κ) {addresses : List UInt16} {bytes : List UInt8}
    (hlength : addresses.length = bytes.length)
    (htable : ∀ address ∈ addresses, ∃ i, Cell.ofAddress s.1.memory.layout address = .table i)
    (hnodup : (addresses.map (Cell.ofAddress s.1.memory.layout)).Nodup) :
    let s' := run s (writes addresses bytes)
    addresses.map (s'.1.readMemory s'.2) = bytes := by
  intro s'
  have hread : ∀ w ∈ addresses.zip bytes, s'.1.readMemory s'.2 w.1 = w.2 := by
    intro w hw
    obtain ⟨i, hi⟩ := htable w.1 (List.of_mem_zip hw).1
    have hlatest : (Cell.table i).latest
        (written s.1.memory.layout (writes addresses bytes)) = some w.2 := by
      rw [written_writes]
      apply Cell.latest_of_mem
      · rwa [List.map_fst_zip (by simp [hlength])]
      · rw [← hi, List.zip_map_left]
        exact List.mem_map_of_mem hw
    rw [readMemory_run, layoutAfter_writes, hi]
    show ((Cell.table i).latest (written s.1.memory.layout (writes addresses bytes))).getD _ = w.2
    rw [hlatest]
    rfl
  calc addresses.map (s'.1.readMemory s'.2)
      = (addresses.zip bytes).map fun w => s'.1.readMemory s'.2 w.1 := by
        rw [← Function.comp_def, ← List.map_map, List.map_fst_zip (Nat.le_of_eq hlength)]
    _ = (addresses.zip bytes).map Prod.snd := List.map_congr_left hread
    _ = bytes := List.map_snd_zip (Nat.le_of_eq hlength.symm)

end MemoryUse

end Picture

/-! ### Accesses -/

/-- Where a program reaches the registers of the picture unit.  The eight repeat, so that there are
many addresses to choose from. -/
structure RegisterAddresses where
  of : RegisterName → UInt16
  region (name : RegisterName) : Region.ofAddress (of name) = .register name

/-- Addresses at equal distances. -/
def stepping (first step n : Nat) : List UInt16 :=
  (List.range n).map fun i => .ofNat (first + i * step)

theorem stepping_succ (first step n : Nat) :
    stepping first step (n + 1) = .ofNat first :: stepping (first + step) step n := by
  rw [stepping, List.range_succ_eq_map, List.map_cons, List.map_map, Nat.zero_mul, Nat.add_zero]
  congr 1
  refine List.map_congr_left fun i _ => ?_
  show UInt16.ofNat (first + (i + 1) * step) = _
  congr 1
  rw [Nat.succ_mul, Nat.add_assoc, Nat.add_comm step]

theorem Picture.Control.step_le (c : Control) : c.step ≤ 32 := by
  unfold step
  split <;> decide

theorem Picture.ScrollAddress.toNat_ofNat_mod {n : Nat} (h : n < 0x4000) :
    (ofNat (n % 0x4000)).toNat = n := by
  rw [Nat.mod_eq_of_lt h, toNat_ofNat (by omega)]

theorem Picture.Registers.advance_toNat {r : Registers} {p step : Nat}
    (hstep : r.control.step = step) (hv : r.v.toNat = p) (hp : p < 0x3F00) :
    r.advance.v.toNat = p + step := by
  have hle := r.control.step_le
  show (ScrollAddress.ofNat ((r.v.toNat + r.control.step) % 32768)).toNat = p + step
  rw [hv, Nat.mod_eq_of_lt (by omega), ScrollAddress.toNat_ofNat (by omega), hstep]

namespace Bus

variable {κ : Type} [Cartridge κ] {b : Bus κ} {p step : Nat} (r : RegisterAddresses)

/-- Points the data register at an address: a read of the status register sees to it that the next
write to the address register is the first of its pair. -/
def pointAt (address : UInt16) (b : Bus κ) : Bus κ :=
  let b := (b.read (r.of .status)).2
  let b := b.write (r.of .address) (highByte address)
  b.write (r.of .address) (lowByte address)

def send (bytes : List UInt8) (b : Bus κ) : Bus κ := bytes.foldl (·.write (r.of .data) ·) b

def receive : Nat → Bus κ → List UInt8 × Bus κ
  | 0, b => ([], b)
  | n + 1, b =>
    let (byte, b) := b.read (r.of .data)
    let (bytes, b) := receive n b
    (byte :: bytes, b)

def store (address : UInt16) (bytes : List UInt8) (b : Bus κ) : Bus κ :=
  (b.pointAt r address).send r bytes

/-- Points the data register at an address, reads it once for nothing and then a number of times. -/
def fetch (address : UInt16) (n : Nat) (b : Bus κ) : List UInt8 × Bus κ :=
  ((b.pointAt r address).read (r.of .data)).2.receive r n

theorem pointAt_eq (address : UInt16) (b : Bus κ) :
    b.pointAt r address =
      b.setRegs { b.video.regs with
        status := { b.video.regs.status with inVblank := false }
        v := .ofNat (address.toNat % 0x4000)
        t := .ofNat (address.toNat % 0x4000)
        toggle := false
        lastWritten := lowByte address } := by
  have hmerge (t : ScrollAddress) :
      (ScrollAddress.ofNat ((highByte address).toNat % 64 * 256 + t.toNat % 256)).toNat / 256 %
        128 * 256 + (lowByte address).toNat = address.toNat % 0x4000 := by
    rw [ScrollAddress.toNat_ofNat (by omega), toNat_highByte, toNat_lowByte]
    omega
  unfold pointAt
  rw [read_of_register (r.region .status), write_of_register (r.region .address),
    write_of_register (r.region .address), ← hmerge b.video.regs.t]
  rfl

theorem write_data (byte : UInt8) (b : Bus κ) :
    b.write (r.of .data) byte =
      { b with
        cartridge := Memory.writeCartridge b.cartridge b.video.regs.v.word byte
        video :=
          { memory := b.video.memory.write b.video.regs.v.word byte
            regs := { b.video.regs with lastWritten := byte }.advance } } :=
  write_of_register (r.region .data) b byte

theorem read_data (hv : b.video.regs.v.toNat = p) (hp : p < 0x3F00) :
    b.read (r.of .data) = (b.video.regs.readBuffer, b.setRegs
      { b.video.regs with
        readBuffer := b.video.readMemory b.cartridge (.ofNat p) }.advance) := by
  have hword : b.video.regs.v.word = .ofNat p := by rw [ScrollAddress.word, hv]
  have hpalette : Video.inPalette (.ofNat p) = false := by
    rw [Video.inPalette, decide_eq_false_iff_not, UInt16.not_le, UInt16.lt_iff_toNat_lt,
      Memory.toNat_wrapAddress, UInt16.toNat_ofNat_of_lt' (Nat.lt_trans hp (by decide))]
    exact Nat.lt_of_le_of_lt (Nat.mod_le _ _) hp
  rw [read_of_register (r.region .data)]
  unfold Video.peekRegister Video.afterRead
  dsimp only
  rw [hword, hpalette, if_neg Bool.false_ne_true, if_neg Bool.false_ne_true]
  rfl

/-- The bytes that are sent are written to the addresses from the data register's on. -/
theorem send_eq (bytes : List UInt8) {s : Video × κ} (hmemory : b.video.memory = s.1.memory)
    (hcartridge : b.cartridge = s.2) (hstep : b.video.regs.control.step = step)
    (hv : b.video.regs.v.toNat = p) (hp : p + bytes.length * step < 0x3F00) :
    let s' := MemoryUse.run s (MemoryUse.writes (stepping p step bytes.length) bytes)
    let b' := b.send r bytes
    b'.video.memory = s'.1.memory ∧ b'.cartridge = s'.2 ∧
      b'.video.regs.control = b.video.regs.control ∧ b'.video.regs.mask = b.video.regs.mask := by
  induction bytes generalizing b s p with
  | nil => exact ⟨hmemory, hcartridge, rfl, rfl⟩
  | cons byte bytes ih =>
    rw [List.length_cons, Nat.succ_mul] at hp
    have hword : b.video.regs.v.word = .ofNat p := by rw [ScrollAddress.word, hv]
    have hwrite := write_data r byte b
    have hnext := Registers.advance_toNat (r := { b.video.regs with lastWritten := byte }) hstep hv
      (by omega)
    obtain ⟨hmemory', hcartridge', hcontrol, hmask⟩ := ih (b := b.write (r.of .data) byte)
      (s := MemoryUse.apply s (.write (.ofNat p) byte)) (p := p + step)
      (by rw [hwrite, hword, hmemory]; rfl) (by rw [hwrite, hword, hcartridge]; rfl)
      (by rw [hwrite]; exact hstep) (by rw [hwrite]; exact hnext) (by omega)
    rw [List.length_cons, stepping_succ]
    refine ⟨hmemory', hcartridge', hcontrol.trans ?_, hmask.trans ?_⟩
    · rw [hwrite]
      rfl
    · rw [hwrite]
      rfl

theorem receive_eq (n : Nat) (hstep : b.video.regs.control.step = step)
    (hv : b.video.regs.v.toNat = p + step) (hp : p + n * step < 0x3F00)
    (hbuffer : b.video.regs.readBuffer = b.video.readMemory b.cartridge (.ofNat p)) :
    (b.receive r n).1 = (stepping p step n).map (b.video.readMemory b.cartridge) ∧
      (b.receive r n).2.video.regs.v.toNat = p + (n + 1) * step := by
  induction n generalizing b p with
  | zero =>
    rw [Nat.one_mul]
    exact ⟨rfl, hv⟩
  | succ n ih =>
    rw [Nat.succ_mul] at hp
    have hread := read_data r hv (by omega)
    have hnext := Registers.advance_toNat hstep hv (by omega)
    obtain ⟨hbytes, hend⟩ := ih (b := (b.read (r.of .data)).2) (p := p + step)
      (by rw [hread]; exact hstep) (by rw [hread]; exact hnext) (by omega) (by rw [hread]; rfl)
    constructor
    · show (b.read (r.of .data)).1 :: ((b.read (r.of .data)).2.receive r n).1 = _
      rw [hbytes, stepping_succ, List.map_cons, hread]
      exact congrArg (· :: _) hbuffer
    · show ((b.read (r.of .data)).2.receive r n).2.video.regs.v.toNat = _
      rw [hend, Nat.succ_mul (n + 1)]
      omega

theorem store_eq (address : UInt16) (bytes : List UInt8) (b : Bus κ)
    (hstep : b.video.regs.control.step = step) (hp : address.toNat + bytes.length * step < 0x3F00) :
    let s' := MemoryUse.run (b.video, b.cartridge)
      (MemoryUse.writes (stepping address.toNat step bytes.length) bytes)
    let b' := b.store r address bytes
    b'.video.memory = s'.1.memory ∧ b'.cartridge = s'.2 ∧
      b'.video.regs.control = b.video.regs.control ∧ b'.video.regs.mask = b.video.regs.mask := by
  have hv := ScrollAddress.toNat_ofNat_mod (n := address.toNat) (by omega)
  rw [store, pointAt_eq]
  exact send_eq r bytes rfl rfl hstep hv hp

theorem fetch_eq (address : UInt16) (n : Nat) (b : Bus κ)
    (hstep : b.video.regs.control.step = step) (hp : address.toNat + n * step < 0x3F00) :
    (b.fetch r address n).1 =
        (stepping address.toNat step n).map (b.video.readMemory b.cartridge) ∧
      (b.fetch r address n).2.video.regs.v.toNat = address.toNat + (n + 1) * step := by
  have hv := ScrollAddress.toNat_ofNat_mod (n := address.toNat) (by omega)
  have hpointed := pointAt_eq r address b
  have hread := read_data r (b := b.pointAt r address) (p := address.toNat)
    (by rw [hpointed]; exact hv) (by omega)
  rw [fetch, hread, hpointed]
  exact receive_eq r n hstep (Registers.advance_toNat hstep hv (by omega)) hp rfl

/-- **What is stored through the data register comes back.**  Let bytes be stored at addresses of
the nametables, in steps of one or of thirty-two, and let no two of the cells that they name be the
same.  Then fetching as many from the same address returns the bytes as they were, whatever the
unit held before, and leaves the register at the second address after theirs. -/
theorem fetch_store (b : Bus κ) (address : UInt16) (bytes : List UInt8)
    (hrange : ∀ i ≤ bytes.length,
      0x2000 ≤ address.toNat + i * b.video.regs.control.step ∧
        address.toNat + i * b.video.regs.control.step ≤ 0x3EFF)
    (hnodup : ((stepping address.toNat b.video.regs.control.step bytes.length).map
      (Cell.ofAddress b.video.memory.layout)).Nodup) :
    ((b.store r address bytes).fetch r address bytes.length).1 = bytes ∧
      ((b.store r address bytes).fetch r address bytes.length).2.video.regs.v.toNat =
        address.toNat + (bytes.length + 1) * b.video.regs.control.step := by
  generalize hstep : b.video.regs.control.step = step at hrange hnodup ⊢
  have hlast := (hrange _ (Nat.le_refl _)).2
  obtain ⟨hmemory, hcartridge, hcontrol, hmask⟩ :=
    store_eq r address bytes b hstep (Nat.lt_succ_of_le hlast)
  obtain ⟨hbytes, hend⟩ := fetch_eq r address bytes.length (b.store r address bytes)
    ((congrArg Control.step hcontrol).trans hstep) (Nat.lt_succ_of_le hlast)
  refine ⟨?_, hend⟩
  have hread : (b.store r address bytes).video.readMemory (b.store r address bytes).cartridge =
      fun address' =>
        let s' := MemoryUse.run (b.video, b.cartridge)
          (MemoryUse.writes (stepping address.toNat step bytes.length) bytes)
        s'.1.readMemory s'.2 address' := by
    funext address'
    simp only [Video.readMemory, hmemory, hcartridge, hmask, MemoryUse.run_regs]
  rw [hbytes, hread]
  refine MemoryUse.map_readMemory_writes (b.video, b.cartridge) ?_ ?_ hnodup
  · rw [stepping, List.length_map, List.length_range]
  · intro address' haddress'
    obtain ⟨i, hi, rfl⟩ := List.mem_map.mp haddress'
    have hin := hrange i (Nat.le_of_lt (List.mem_range.mp hi))
    exact ⟨_, Cell.ofAddress_of_tables _ hin.1 hin.2⟩

/-- Four bytes are stored down a column, from the last rows of one table to the first of another,
while the toggle was set and the registers are reached at the last of their addresses. -/
theorem fetch_store_column :
    let r : RegisterAddresses :=
      { of := fun name => 0x3FF8 + .ofNat name.ctorIdx, region := fun name => by cases name <;> rfl }
    let b := ((plug (LayoutSwitch.mk .vertical)).write 0x2000 0x04).write 0x2005 0x11
    let bytes : List UInt8 := [0xDE, 0xAD, 0xBE, 0xEF]
    ((∀ i ≤ bytes.length, 0x2000 ≤ 0x27C0 + i * b.video.regs.control.step ∧
        0x27C0 + i * b.video.regs.control.step ≤ 0x3EFF) ∧
      ((stepping 0x27C0 b.video.regs.control.step bytes.length).map
        (Cell.ofAddress b.video.memory.layout)).Nodup) ∧
      b.video.regs.toggle = true ∧ b.video.regs.control.step = 32 ∧
      ((b.store r 0x27C0 bytes).fetch r 0x27C0 4).1 = bytes ∧
      ((b.store r 0x27C0 bytes).fetch r 0x27C0 4).2.video.regs.v.toNat = 0x27C0 + 5 * 32 := by
  intro r b bytes
  have hrange : ∀ i ≤ bytes.length, 0x2000 ≤ 0x27C0 + i * b.video.regs.control.step ∧
      0x27C0 + i * b.video.regs.control.step ≤ 0x3EFF := by
    decide
  have hnodup : ((stepping 0x27C0 b.video.regs.control.step bytes.length).map
      (Cell.ofAddress b.video.memory.layout)).Nodup := by
    decide
  exact ⟨⟨hrange, hnodup⟩, by decide, by decide,
    fetch_store r b 0x27C0 bytes hrange hnodup⟩

end Bus

end Famicom
