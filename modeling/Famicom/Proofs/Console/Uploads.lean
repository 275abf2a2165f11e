import Famicom.Proofs.Bus.Apart
import Famicom.Proofs.Console.VblankHistory
import Famicom.Proofs.Picture.Frame

/-!
# What ticks touch

A tick of the picture has the whole picture unit at hand and little to do with it.  However many of
them pass, the machine is the same but for three registers of the unit: the position in view, the
status, and a pending interrupt (`Drawing.Ticked`).  While neither the background nor the sprites
are shown, the position stays as well, and what is left are the flags.  They have no part in what
the accesses do to the memory.  So a program that fills the memory with rendering off need not care
how many ticks pass between its accesses (`Drawing.ticks_touch`).
-/

namespace Famicom

open Picture

/-! ### The registers of the picture unit -/

namespace Picture.Registers

variable {r r' : Registers}

/-- The registers with the flags that ticks raise and clear as they are at power-on. -/
def withoutFlags (r : Registers) : Registers := { r with status := .initial, nmiPending := false }

theorem Follows.lastWritten (h : r.Follows r') : r'.lastWritten = r.lastWritten := by rw [h]

theorem Follows.withoutFlags (h : r.Follows r') (hv : r'.v = r.v) :
    r'.withoutFlags = r.withoutFlags := by
  unfold Registers.withoutFlags
  rw [h, hv]

theorem vShare_of_dark (h : r.mask.rendering = false) (b : Beam) : r.vShare b = r.v := by
  simp [vShare, vFetched, h]

theorem writeScroll_withoutFlags (r : Registers) (byte : UInt8) :
    r.withoutFlags.writeScroll byte = (r.writeScroll byte).withoutFlags := by
  cases htoggle : r.toggle <;> simp [writeScroll, withoutFlags, htoggle]

theorem writeAddress_withoutFlags (r : Registers) (byte : UInt8) :
    r.withoutFlags.writeAddress byte = (r.writeAddress byte).withoutFlags := by
  cases htoggle : r.toggle <;> simp [writeAddress, withoutFlags, htoggle]

end Picture.Registers

theorem Picture.Video.writeRegister_mask (u : Video) (name : RegisterName) (byte : UInt8) :
    (u.writeRegister name byte).regs.mask =
      if name == .mask then .ofByte byte else u.regs.mask := by
  cases name with
  | scroll =>
    simp only [writeRegister, Registers.writeScroll]
    split <;> rfl
  | address =>
    simp only [writeRegister, Registers.writeAddress]
    split <;> rfl
  | _ => rfl

namespace Picture.Scan

variable {κ σ : Type} [Cartridge κ] {cart : κ} {m : Memory} [PixelSink σ]

/-- With rendering off ticks leave the position in view alone. -/
theorem run_v_of_dark (n : Nat) {s : Scan σ} (h : s.raster.beam.line ≤ Beam.preparing)
    (hdark : s.regs.mask.rendering = false) : (run cart m n s).regs.v = s.regs.v := by
  induction n generalizing s with
  | zero => rfl
  | succ n ih =>
    have hnext : (s.step cart m).regs.mask.rendering = false := by
      rw [(step_follows h).mask]
      exact hdark
    rw [run, ih (step_line_le h) hnext, step_v (Beam.next_line_le h),
      Registers.vShare_of_dark hdark]

end Picture.Scan

/-! ### The bus but for the flags -/

namespace Bus

variable {κ : Type}

/-- The bus with the flags of the picture unit as they are at power-on. -/
def withoutFlags (b : Bus κ) : Bus κ := b.setRegs b.video.regs.withoutFlags

variable [Cartridge κ] {address : UInt16}

/-- Below its three flags the status register reads as what was last written to any register. -/
theorem peek_status (b : Bus κ) : b.peek 0x2002 &&& 0x1F = b.video.regs.lastWritten &&& 0x1F := by
  have hlow (x y : UInt8) : ((x &&& 0xE0) ||| (y &&& 0x1F)) &&& 0x1F = y &&& 0x1F := by
    rw [← UInt8.toBitVec_inj]
    simp [BitVec.and_or_distrib_right, BitVec.and_assoc]
  exact hlow ..

theorem peek_setRegs (h : isRegister address = false) (b : Bus κ) (r : Picture.Registers) :
    (b.setRegs r).peek address = b.peek address := by
  unfold peek
  split
  · rfl
  · rename_i name hname
    rw [isRegister_of_ofAddress hname] at h
    cases h
  · rfl
  · rfl

theorem read_withoutFlags (b : Bus κ) (address : UInt16) :
    (b.withoutFlags.read address).2.withoutFlags = (b.read address).2.withoutFlags := by
  by_cases hregister : isRegister address = true
  · have hregion := Region.ofAddress_of_isRegister hregister
    rw [read_of_register hregion, read_of_register hregion]
    cases RegisterName.ofAddress address <;> rfl
  · rw [Bool.not_eq_true] at hregister
    have hread : (b.withoutFlags.read address).2 =
        (b.read address).2.setRegs b.video.regs.withoutFlags := by
      rw [withoutFlags, read_setRegs hregister]
    rw [hread, read_of_not_isRegister hregister]
    rfl

/-- A transfer does not see the flags, unless it copies the registers of the picture unit. -/
theorem transfer_withoutFlags {page : UInt8} (h : page < 0x20 ∨ 0x40 ≤ page) (b : Bus κ) :
    (b.withoutFlags.transfer page).withoutFlags = (b.transfer page).withoutFlags := by
  have hpeek : ∀ i, b.withoutFlags.peek (wordOf page i) = b.peek (wordOf page i) :=
    fun i => peek_setRegs (isRegister_of_page (highByte_wordOf page i) h) b _
  unfold transfer
  simp only [hpeek]
  rfl

theorem write_withoutFlags (b : Bus κ) {byte : UInt8}
    (h : address = 0x4014 → byte < 0x20 ∨ 0x40 ≤ byte) :
    (b.withoutFlags.write address byte).withoutFlags = (b.write address byte).withoutFlags := by
  by_cases hregister : isRegister address = true
  · have hregion := Region.ofAddress_of_isRegister hregister
    rw [write_of_register hregion, write_of_register hregion]
    let r : Registers := { b.video.regs with lastWritten := byte }
    cases RegisterName.ofAddress address with
    | scroll =>
      exact congrArg (fun r => b.setRegs r.withoutFlags) (r.writeScroll_withoutFlags byte)
    | address =>
      exact congrArg (fun r => b.setRegs r.withoutFlags) (r.writeAddress_withoutFlags byte)
    | _ => rfl
  · rw [Bool.not_eq_true] at hregister
    by_cases htransfer : address = 0x4014
    · subst htransfer
      exact transfer_withoutFlags (h rfl) b
    · have hwrite : b.withoutFlags.write address byte =
          (b.write address byte).setRegs b.video.regs.withoutFlags := by
        rw [withoutFlags, write_setRegs hregister htransfer]
      have hregs := write_regs_of_not_isRegister hregister b byte
      rw [hwrite, withoutFlags, withoutFlags, hregs]
      rfl

/-- No read changes what is shown. -/
theorem read_mask (b : Bus κ) (address : UInt16) :
    (b.read address).2.video.regs.mask = b.video.regs.mask := by
  by_cases h : isRegister address = true
  · rw [read_of_register (Region.ofAddress_of_isRegister h)]
    cases RegisterName.ofAddress address <;> rfl
  · rw [Bool.not_eq_true] at h
    rw [read_of_not_isRegister h]

/-- Only a write to the mask register changes what is shown. -/
theorem write_mask (b : Bus κ) (address : UInt16) (byte : UInt8) :
    (b.write address byte).video.regs.mask =
      if answers 1 address then .ofByte byte else b.video.regs.mask := by
  by_cases h : isRegister address = true
  · have hmask : answers 1 address = _ := answers_register h .mask
    rw [hmask, write_of_register (Region.ofAddress_of_isRegister h)]
    exact b.video.writeRegister_mask _ byte
  · rw [Bool.not_eq_true] at h
    rw [answers_of_not_isRegister h, write_regs_of_not_isRegister h]
    rfl

end Bus

namespace Machine

variable {κ : Type}

/-- The machine with the flags of the picture unit as they are at power-on. -/
def withoutFlags (m : Machine κ) : Machine κ := { m with bus := m.bus.withoutFlags }

variable [Cartridge κ] {m m' : Machine κ}

theorem read_same (h : m.withoutFlags = m'.withoutFlags) (address : UInt16) :
    ({ m with bus := (m.bus.read address).2 } : Machine κ).withoutFlags =
      ({ m' with bus := (m'.bus.read address).2 } : Machine κ).withoutFlags := by
  have hread (m : Machine κ) : ({ m with bus := (m.bus.read address).2 } : Machine κ).withoutFlags =
      ({ m.withoutFlags with
        bus := (m.withoutFlags.bus.read address).2 } : Machine κ).withoutFlags :=
    congrArg (fun b => { m with bus := b }) (m.bus.read_withoutFlags address).symm
  rw [hread m, hread m', h]

theorem write_same (h : m.withoutFlags = m'.withoutFlags) {address : UInt16} {byte : UInt8}
    (hpage : address = 0x4014 → byte < 0x20 ∨ 0x40 ≤ byte) :
    (m.write address byte).withoutFlags = (m'.write address byte).withoutFlags := by
  have hwrite (m : Machine κ) :
      (m.write address byte).withoutFlags = (m.withoutFlags.write address byte).withoutFlags :=
    congrArg (fun b => { m.write address byte with bus := b })
      (m.bus.write_withoutFlags hpage).symm
  rw [hwrite m, hwrite m', h]

end Machine

/-! ### Ticks -/

/-- An access that keeps rendering off if it is off, and that copies none of the picture unit's
registers into the sprite list. -/
def Incident.Dark : Incident → Prop
  | .tick | .read _ => True
  | .write address byte =>
    (answers 1 address = true → (Mask.ofByte byte).rendering = false) ∧
      (address = 0x4014 → byte < 0x20 ∨ 0x40 ≤ byte)

instance : DecidablePred Incident.Dark
  | .tick | .read _ => .isTrue trivial
  | .write _ _ => inferInstanceAs (Decidable (_ ∧ _))

/-- What comes between the ticks. -/
def accesses (schedule : List Incident) : List Incident := schedule.filter (· ≠ .tick)

namespace Drawing

variable {κ σ : Type} [Cartridge κ] [PixelSink σ] {d d' : Drawing κ σ}

/-- A drawing after ticks have passed, beside what it was before. -/
structure Ticked (d d' : Drawing κ σ) : Prop where
  /-- nothing of the machine has changed but registers of the picture unit -/
  machine : d'.machine = { d.machine with bus := d.machine.bus.setRegs d'.regs }
  /-- of the registers only the position in view, the status and a pending interrupt have -/
  regs : d.regs.Follows d'.regs
  /-- of the status, as it is read, only the three flags have -/
  status : d'.machine.bus.peek 0x2002 &&& 0x1F = d.machine.bus.peek 0x2002 &&& 0x1F
  /-- with rendering off the position in view has not -/
  v (h : d.regs.mask.rendering = false) : d'.regs.v = d.regs.v

theorem ticks_line_le (h : d.raster.beam.line ≤ Beam.preparing) (n : Nat) :
    (d.ticks n).raster.beam.line ≤ Beam.preparing := by
  induction n generalizing d with
  | zero => exact h
  | succ n ih =>
    rw [Nat.add_comm, ticks_add]
    exact ih (Scan.step_line_le (s := d.scan) h)

theorem ticked (h : d.raster.beam.line ≤ Beam.preparing) (n : Nat) : d.Ticked (d.ticks n) := by
  have hregs : d.regs.Follows (d.ticks n).regs := Scan.run_follows n (s := d.scan) h
  constructor
  case machine => rfl
  case regs => exact hregs
  case status =>
    rw [Bus.peek_status, Bus.peek_status]
    exact congrArg (· &&& 0x1F) hregs.lastWritten
  case v => exact fun hdark => Scan.run_v_of_dark n (s := d.scan) h hdark

omit [PixelSink σ] in
theorem Ticked.withoutFlags (h : d.Ticked d') (hdark : d.regs.mask.rendering = false) :
    d'.machine.withoutFlags = d.machine.withoutFlags := by
  have hregs := h.regs.withoutFlags (h.v hdark)
  rw [h.machine]
  exact congrArg (fun r => { d.machine with bus := d.machine.bus.setRegs r }) hregs

/-! ### Accesses with rendering off -/

/-- Ticks and accesses that keep rendering off do the same to a machine, but for the flags, as the
accesses alone do to another that was the same but for the flags. -/
theorem follow_withoutFlags (h : d.raster.beam.line ≤ Beam.preparing)
    (hdark : d.regs.mask.rendering = false)
    (hflags : d.machine.withoutFlags = d'.machine.withoutFlags) {l : List Incident}
    (hl : ∀ e ∈ l, e.Dark) :
    (d.follow l).machine.withoutFlags = (d'.follow (accesses l)).machine.withoutFlags := by
  induction l generalizing d d' with
  | nil => exact hflags
  | cons e l ih =>
    obtain ⟨he, htail⟩ := List.forall_mem_cons.mp hl
    cases e with
    | tick =>
      have htick := ticked h 1
      refine ih (ticks_line_le h 1) ?_ ?_ htail
      · show (d.ticks 1).regs.mask.rendering = false
        rw [htick.regs.mask]
        exact hdark
      · exact (htick.withoutFlags hdark).trans hflags
    | read address =>
      refine ih h ?_ (Machine.read_same hflags address) htail
      show (d.machine.bus.read address).2.video.regs.mask.rendering = false
      rw [Bus.read_mask]
      exact hdark
    | write address byte =>
      refine ih h ?_ (Machine.write_same hflags he.2) htail
      show (d.machine.bus.write address byte).video.regs.mask.rendering = false
      rw [Bus.write_mask]
      split
      · rename_i hmask
        exact he.1 hmask
      · exact hdark

/-- **Ticks touch only what they may.**  Wherever the beam stands on the lines of a frame, and
however many ticks pass, they change nothing but the position in view, the three flags of the status
and a pending interrupt; and the position only while the background or the sprites are shown.  So
while neither is, a program may fill the memory of the picture unit, or do anything else that keeps
rendering off: but for the flags, the machine ends up as if no ticks had passed in between. -/
theorem ticks_touch (h : d.raster.beam.line < linesPerFrame) :
    (∀ n, d.Ticked (d.ticks n)) ∧
      (d.regs.mask.rendering = false → ∀ l : List Incident, (∀ e ∈ l, e.Dark) →
        (d.follow l).machine.withoutFlags = (d.follow (accesses l)).machine.withoutFlags) := by
  have hline : d.raster.beam.line ≤ Beam.preparing := Nat.le_of_lt_succ h
  refine ⟨ticked hline, ?_⟩
  intro hdark l hl
  exact follow_withoutFlags hline hdark rfl hl

/-- Vblank begins between the writes of an upload, and its byte goes where it goes without any
ticks. -/
theorem upload_across_vblank :
    let d : Drawing Board Screen :=
      { powerOn {} .blank {} .blank with raster := { beam := ⟨241, 0, 82522⟩ } }
    let l : List Incident :=
      [.read 0x2002, .write 0x2006 0x21, .tick, .write 0x2006 0x08, .tick, .write 0x2007 0x5A]
    (d.raster.beam.line < linesPerFrame ∧ d.regs.mask.rendering = false ∧ ∀ e ∈ l, e.Dark) ∧
      d.Ticked (d.ticks 2) ∧
      (d.follow l).machine.withoutFlags = (d.follow (accesses l)).machine.withoutFlags ∧
      (d.follow l).regs.status ≠ (d.follow (accesses l)).regs.status ∧
      (d.follow l).machine.bus.video.memory.tableByte 0 0x108 = 0x5A := by
  intro d l
  have hline : d.raster.beam.line < linesPerFrame := by decide
  have hdark : d.regs.mask.rendering = false := rfl
  have hl : ∀ e ∈ l, e.Dark := by decide
  obtain ⟨hticks, hfollow⟩ := ticks_touch hline
  exact ⟨⟨hline, hdark, hl⟩, hticks 2, hfollow hdark l hl, by decide +kernel, by decide +kernel⟩

end Drawing

end Famicom
