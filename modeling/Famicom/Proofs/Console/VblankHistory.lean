import Famicom.Proofs.Console.Schedule
import Famicom.Proofs.Picture.Shares
import Mathlib.Data.List.Induction

/-!
# Vblank and its interrupt follow their history

Four things decide whether the picture unit is in vblank: a reset, the two ticks at which vblank
begins and ends, and a read of the status register.  Two raise its interrupt: the tick at which
vblank begins, and a write to the control register during vblank.  Whatever happens between
power-on and now, in whatever order, the vblank flag is what the latest of the four has made of it,
and an interrupt is pending exactly if one of the two has come since the interrupt was last taken or
the unit was last reset (`powerOn_history`).

What one occurrence does to the two flags is said in `occur_inVblank` and `occur_nmiPending`; the
rest is induction over the occurrences, from the latest back.
-/

namespace Famicom

open Picture

/-- What can happen to a machine and the drawing of its picture. -/
inductive Occurrence where
  /-- a tick or an access, as while a picture is drawn -/
  | incident (e : Incident)
  /-- a frame is begun -/
  | beginFrame
  /-- the reset line of the bus -/
  | reset
  /-- the processor asks for a pending interrupt and takes it -/
  | takeNmi
  deriving DecidableEq, Repr

/-- What withdraws a pending interrupt: the processor takes it, or the unit is reset. -/
def Occurrence.settles : Occurrence → Bool
  | takeNmi | reset => true
  | _ => false

/-- What decides whether the picture unit is in vblank. -/
inductive VblankEvent where
  /-- power-on, or a reset -/
  | reset
  /-- the beam arrives at tick 1 of line 241 -/
  | beginning
  /-- the beam arrives at tick 1 of line 261 -/
  | ending
  /-- the status register is read -/
  | statusRead
  deriving DecidableEq, Repr

/-- What the vblank flag is after the event. -/
def VblankEvent.inVblank : VblankEvent → Bool
  | reset | beginning => true
  | ending | statusRead => false

/-- The picture unit's register of the given number answers at the address; the eight repeat from
`0x2000` up to `0x3FFF`. -/
def answers (i : Nat) (address : UInt16) : Bool :=
  0x2000 ≤ address && address < 0x4000 && address.toNat % 8 == i

namespace Drawing

variable {κ σ : Type}

abbrev regs (d : Drawing κ σ) : Registers := d.machine.bus.video.regs

variable [Cartridge κ] [PixelSink σ]

/-- A machine just switched on, with nothing drawn yet. -/
def powerOn (cpu : Processor.Cpu) (cart : κ) (journal : Journal) (sink : σ) : Drawing κ σ where
  machine := { cpu, bus := .plug cart, journal }
  raster := {}
  sink := sink

def occur (d : Drawing κ σ) : Occurrence → Drawing κ σ
  | .incident e => d.meet e
  | .beginFrame => { d with raster := d.raster.beginFrame }
  | .reset => { d with machine := { d.machine with bus := d.machine.bus.reset } }
  | .takeNmi => { d with machine := { d.machine with
      bus := { d.machine.bus with video := d.machine.bus.video.takeNmi.2 } } }

def undergo (d : Drawing κ σ) (l : List Occurrence) : Drawing κ σ := l.foldl occur d

/-- The occurrences, each with the drawing that it meets. -/
def history (d : Drawing κ σ) : List Occurrence → List (Drawing κ σ × Occurrence)
  | [] => []
  | o :: l => (d, o) :: (d.occur o).history l

/-- The next tick brings the beam to a place. -/
def Arrives (d : Drawing κ σ) (line tick : Nat) : Prop :=
  (d.ticks 1).raster.beam.line = line ∧ (d.ticks 1).raster.beam.tick = tick

instance (d : Drawing κ σ) (line tick : Nat) : Decidable (d.Arrives line tick) :=
  inferInstanceAs (Decidable (_ ∧ _))

/-- What an occurrence is among the events that decide about vblank, if it is one of them. -/
def vblankEvent (d : Drawing κ σ) : Occurrence → Option VblankEvent
  | .incident .tick =>
    if d.Arrives 241 1 then some .beginning else if d.Arrives 261 1 then some .ending else none
  | .incident (.read address) => if answers 2 address then some .statusRead else none
  | .reset => some .reset
  | _ => none

/-- The events that decide about vblank, from power-on. -/
def vblankEvents (d : Drawing κ σ) (l : List Occurrence) : List VblankEvent :=
  .reset :: (d.history l).filterMap fun e => e.1.vblankEvent e.2

/-- The occurrence raises an interrupt: vblank begins while interrupts are enabled, or they are
enabled during vblank. -/
def raises (d : Drawing κ σ) : Occurrence → Bool
  | .incident .tick => d.Arrives 241 1 && d.regs.control.nmiEnabled
  | .incident (.write address byte) =>
    answers 0 address && bit byte 7 && !d.regs.control.nmiEnabled && d.regs.status.inVblank
  | _ => false

/-- The occurrence delivers an interrupt to the processor. -/
def delivers (d : Drawing κ σ) (o : Occurrence) : Bool :=
  o == .takeNmi && d.machine.bus.video.takeNmi.1

/-- How often an interrupt has been raised. -/
def raised (d : Drawing κ σ) (l : List Occurrence) : Nat :=
  (d.history l).countP fun e => e.1.raises e.2

def delivered (d : Drawing κ σ) (l : List Occurrence) : Nat :=
  (d.history l).countP fun e => e.1.delivers e.2

/-- An interrupt has been raised since it was last taken or the unit was last reset. -/
def RaisedSince (d : Drawing κ σ) (l : List Occurrence) : Prop :=
  ∃ past o later, l = past ++ o :: later ∧ (d.undergo past).raises o ∧
    ∀ o' ∈ later, o'.settles = false

variable {d : Drawing κ σ}

/-! ### Runs -/

theorem undergo_concat (d : Drawing κ σ) (l : List Occurrence) (o : Occurrence) :
    d.undergo (l ++ [o]) = (d.undergo l).occur o := by
  rw [undergo, List.foldl_append]
  rfl

theorem history_append (d : Drawing κ σ) (l l' : List Occurrence) :
    d.history (l ++ l') = d.history l ++ (d.undergo l).history l' := by
  induction l generalizing d with
  | nil => rfl
  | cons o l ih => exact congrArg ((d, o) :: ·) (ih _)

theorem history_concat (d : Drawing κ σ) (l : List Occurrence) (o : Occurrence) :
    d.history (l ++ [o]) = d.history l ++ [(d.undergo l, o)] := history_append d l [o]

/-! ### A tick -/

theorem arrives_iff (d : Drawing κ σ) (line tick : Nat) :
    d.Arrives line tick ↔ d.raster.beam.next.line = line ∧ d.raster.beam.next.tick = tick := by
  have hbeam : (d.ticks 1).raster.beam = d.raster.beam.next := Scan.step_beam d.scan
  rw [Arrives, hbeam]

theorem vblankBegins_eq (d : Drawing κ σ) :
    Registers.vblankBegins d.raster.beam.next = decide (d.Arrives 241 1) := by
  rw [Bool.eq_iff_iff, decide_eq_true_eq, arrives_iff, Registers.vblankBegins, Bool.and_eq_true,
    beq_iff_eq, beq_iff_eq]

theorem tick_eq (h : d.raster.beam.next.line ≤ Beam.preparing) :
    d.ticks 1 = d.setScan
      (Scan.shares d.machine.bus.cartridge d.machine.bus.video.memory d.scan) := by
  rw [ticks_eq]
  exact congrArg d.setScan (Scan.step_shares h)

theorem tick_inVblank (h : d.raster.beam.next.line ≤ Beam.preparing) :
    (d.ticks 1).regs.status.inVblank =
      if d.Arrives 241 1 then true else if d.Arrives 261 1 then false
      else d.regs.status.inVblank := by
  have hstatus : (d.ticks 1).regs.status = d.regs.statusShare d.raster.beam.next
      (d.raster.moved.hitsZero d.regs)
      (d.raster.sprites.overflows d.machine.bus.video.memory d.regs.control
        d.raster.beam.next) := by
    rw [tick_eq h]
    rfl
  rw [hstatus, Registers.statusShare, vblankBegins_eq]
  by_cases hdraws : d.raster.beam.next.Draws
  · have hline := hdraws.1
    rw [if_pos hdraws, if_neg, if_neg]
    · rw [arrives_iff]
      omega
    · rw [arrives_iff]
      omega
  · have hending : (d.raster.beam.next.line = Beam.preparing ∧ d.raster.beam.next.tick = 1) ↔
        d.Arrives 261 1 := (arrives_iff d 261 1).symm
    rw [if_neg hdraws]
    simp only [hending]
    split_ifs with hend hbegin hbegin
    · rw [arrives_iff] at hend hbegin
      omega
    · rfl
    · simp [hbegin]
    · simp [hbegin]

theorem tick_nmiPending (h : d.raster.beam.next.line ≤ Beam.preparing) :
    (d.ticks 1).regs.nmiPending = (d.regs.nmiPending || d.raises (.incident .tick)) := by
  rw [tick_eq h, raises, ← vblankBegins_eq]
  rfl

theorem tick_control (h : d.raster.beam.next.line ≤ Beam.preparing) :
    (d.ticks 1).regs.control = d.regs.control := by
  rw [tick_eq h]
  rfl

/-! ### Accesses -/

end Drawing

theorem Region.ofAddress_of_isRegister {address : UInt16} (h : isRegister address = true) :
    Region.ofAddress address = .register (.ofAddress address) := by
  simp only [isRegister, Bool.and_eq_true, decide_eq_true_eq] at h
  rw [Region.ofAddress, if_neg (UInt16.not_lt.mpr h.1), if_pos h.2]

theorem answers_of_not_isRegister {address : UInt16} (h : isRegister address = false) (i : Nat) :
    answers i address = false := by
  rw [answers, ← isRegister, h, Bool.false_and]

/-- The number of a register among the eight. -/
def Picture.RegisterName.number : RegisterName → Nat
  | control => 0
  | mask => 1
  | status => 2
  | spriteIndex => 3
  | spriteData => 4
  | scroll => 5
  | address => 6
  | data => 7

theorem answers_register {address : UInt16} (h : isRegister address = true) (name : RegisterName) :
    answers name.number address = (RegisterName.ofAddress address == name) := by
  rw [answers, ← isRegister, h, Bool.true_and, RegisterName.ofAddress]
  have hlt : address.toNat % 8 < 8 := Nat.mod_lt _ (by decide)
  revert hlt
  generalize address.toNat % 8 = n
  revert n
  cases name <;> decide

namespace Picture.Video

variable {κ : Type} [Cartridge κ]

theorem afterRead_flags (u : Video) (cart : κ) (name : RegisterName) :
    (u.afterRead cart name).regs.status.inVblank =
        (!(name == .status) && u.regs.status.inVblank) ∧
      (u.afterRead cart name).regs.nmiPending = u.regs.nmiPending := by
  cases name <;> exact ⟨rfl, rfl⟩

theorem writeRegister_flags (u : Video) (name : RegisterName) (byte : UInt8) :
    (u.writeRegister name byte).regs.status.inVblank = u.regs.status.inVblank ∧
      (u.writeRegister name byte).regs.nmiPending =
        (u.regs.nmiPending || (name == .control && bit byte 7 && !u.regs.control.nmiEnabled &&
          u.regs.status.inVblank)) := by
  cases name with
  | control => 
    refine ⟨rfl, ?_⟩
    show (u.regs.nmiPending ||
      (!u.regs.control.nmiEnabled && bit byte 7 && u.regs.status.inVblank)) = _
    simp [Bool.and_comm]
  | scroll =>
    simp only [writeRegister, Registers.writeScroll]
    split <;> simp
  | address =>
    simp only [writeRegister, Registers.writeAddress]
    split <;> simp
  | _ => exact ⟨rfl, (Bool.or_false _).symm⟩

end Picture.Video

namespace Bus

variable {κ : Type} [Cartridge κ]

/-- Of all reads only those of the status register touch the vblank flag, and none an interrupt. -/
theorem read_flags (b : Bus κ) (address : UInt16) :
    (b.read address).2.video.regs.status.inVblank =
        (!answers 2 address && b.video.regs.status.inVblank) ∧
      (b.read address).2.video.regs.nmiPending = b.video.regs.nmiPending := by
  by_cases h : isRegister address = true
  · have hstatus : answers 2 address = _ := answers_register h .status
    rw [hstatus, read_of_register (Region.ofAddress_of_isRegister h)]
    exact b.video.afterRead_flags b.cartridge _
  · rw [Bool.not_eq_true] at h
    rw [answers_of_not_isRegister h, read_of_not_isRegister h]
    exact ⟨rfl, rfl⟩

theorem write_regs_of_not_isRegister {address : UInt16} (h : isRegister address = false)
    (b : Bus κ) (byte : UInt8) : (b.write address byte).video.regs = b.video.regs := by
  unfold write
  split
  · rfl
  · rename_i name hname
    rw [isRegister_of_ofAddress hname] at h
    cases h
  · simp only [transfer, Video.transfer]
  · rfl
  · rw [writeCartridge_eq]
    rfl
  · rfl

/-- No write touches the vblank flag, and only those to the control register can raise an
interrupt. -/
theorem write_flags (b : Bus κ) (address : UInt16) (byte : UInt8) :
    (b.write address byte).video.regs.status.inVblank = b.video.regs.status.inVblank ∧
      (b.write address byte).video.regs.nmiPending =
        (b.video.regs.nmiPending || (answers 0 address && bit byte 7 &&
          !b.video.regs.control.nmiEnabled && b.video.regs.status.inVblank)) := by
  by_cases h : isRegister address = true
  · have hcontrol : answers 0 address = _ := answers_register h .control
    rw [hcontrol, write_of_register (Region.ofAddress_of_isRegister h)]
    exact b.video.writeRegister_flags _ byte
  · rw [Bool.not_eq_true] at h
    rw [answers_of_not_isRegister h, write_regs_of_not_isRegister h]
    exact ⟨rfl, (Bool.or_false _).symm⟩

end Bus

namespace Drawing

variable {κ σ : Type} [Cartridge κ] [PixelSink σ] {d : Drawing κ σ}

/-! ### One occurrence -/

theorem occur_line_le (h : d.raster.beam.line ≤ Beam.preparing) (o : Occurrence) :
    (d.occur o).raster.beam.line ≤ Beam.preparing := by
  cases o with
  | incident e =>
    cases e with
    | tick =>
      have hbeam : (d.ticks 1).raster.beam = d.raster.beam.next := Scan.step_beam d.scan
      rw [occur, meet, hbeam]
      exact Beam.next_line_le h
    | read address => exact h
    | write address byte => exact h
  | beginFrame => exact Nat.le_refl _
  | reset => exact h
  | takeNmi => exact h

theorem vblankEvent_tick (d : Drawing κ σ) :
    d.vblankEvent (.incident .tick) =
      if d.Arrives 241 1 then some .beginning else if d.Arrives 261 1 then some .ending else none :=
  rfl

theorem vblankEvent_read (d : Drawing κ σ) (address : UInt16) :
    d.vblankEvent (.incident (.read address)) =
      if answers 2 address then some .statusRead else none := rfl

/-- What an occurrence makes of the vblank flag. -/
theorem occur_inVblank (h : d.raster.beam.line ≤ Beam.preparing) (o : Occurrence) :
    (d.occur o).regs.status.inVblank =
      ((d.vblankEvent o).elim d.regs.status.inVblank VblankEvent.inVblank) := by
  cases o with
  | incident e =>
    cases e with
    | tick =>
      rw [vblankEvent_tick]
      refine (tick_inVblank (Beam.next_line_le h)).trans ?_
      split_ifs <;> rfl
    | read address =>
      rw [vblankEvent_read]
      refine (d.machine.bus.read_flags address).1.trans ?_
      cases answers 2 address <;> rfl
    | write address byte => exact (d.machine.bus.write_flags address byte).1
  | beginFrame => rfl
  | reset => rfl
  | takeNmi => rfl

theorem occur_nmiPending (h : d.raster.beam.line ≤ Beam.preparing) (o : Occurrence) :
    (d.occur o).regs.nmiPending =
      (d.raises o || (d.regs.nmiPending && !o.settles)) := by
  cases o with
  | incident e =>
    cases e with
    | tick =>
      rw [occur, meet, tick_nmiPending (Beam.next_line_le h), Bool.or_comm]
      exact congrArg _ (Bool.and_true _).symm
    | read address =>
      exact (d.machine.bus.read_flags address).2.trans (Bool.and_true _).symm
    | write address byte =>
      refine (d.machine.bus.write_flags address byte).2.trans ?_
      rw [Bool.or_comm]
      exact congrArg _ (Bool.and_true _).symm
  | beginFrame => exact (Bool.and_true _).symm
  | reset => exact (Bool.and_false _).symm
  | takeNmi => exact (Bool.and_false _).symm

/-- A delivery uses up what is pending, and only a raise makes something pending. -/
theorem occur_delivers (h : d.raster.beam.line ≤ Beam.preparing) (o : Occurrence) :
    (if d.delivers o then 1 else 0) + (d.occur o).regs.nmiPending.toNat ≤
      d.regs.nmiPending.toNat + if d.raises o then 1 else 0 := by
  have hwithdrawn : d.delivers o = true → o.settles = true ∧ d.regs.nmiPending = true := by
    rw [delivers, Bool.and_eq_true, beq_iff_eq]
    rintro ⟨rfl, hpending⟩
    exact ⟨rfl, hpending⟩
  rw [occur_nmiPending h]
  by_cases hdelivers : d.delivers o = true
  · obtain ⟨hsettles, hpending⟩ := hwithdrawn hdelivers
    rw [hdelivers, hsettles, hpending]
    cases d.raises o <;> decide
  · rw [if_neg hdelivers]
    cases d.raises o <;> cases d.regs.nmiPending <;> cases o.settles <;> decide

/-! ### All occurrences -/

section Run

variable (h : d.raster.beam.line ≤ Beam.preparing)
include h

theorem undergo_line_le (l : List Occurrence) :
    (d.undergo l).raster.beam.line ≤ Beam.preparing := by
  induction l using List.reverseRecOn with
  | nil => exact h
  | append_singleton l o ih =>
    rw [undergo_concat]
    exact occur_line_le ih o

/-- The vblank flag is what the latest event has made of it. -/
theorem undergo_inVblank (l : List Occurrence) :
    (d.undergo l).regs.status.inVblank =
      ((d.history l).filterMap fun e => e.1.vblankEvent e.2).getLast?.elim
        d.regs.status.inVblank VblankEvent.inVblank := by
  induction l using List.reverseRecOn with
  | nil => rfl
  | append_singleton l o ih =>
    rw [undergo_concat, occur_inVblank (undergo_line_le h l), history_concat,
      List.filterMap_append]
    cases hevent : (d.undergo l).vblankEvent o with
    | none => simpa [hevent] using ih
    | some e => simp [hevent]

omit h in
theorem raisedSince_concat (l : List Occurrence) (o : Occurrence) :
    d.RaisedSince (l ++ [o]) ↔
      (d.undergo l).raises o ∨ d.RaisedSince l ∧ o.settles = false := by
  constructor
  · rintro ⟨past, o', later, hl, hraises, hlater⟩
    cases later using List.reverseRecOn with
    | nil =>
      obtain ⟨rfl, hlast⟩ := List.append_inj' hl rfl
      cases hlast
      exact .inl hraises
    | append_singleton later last =>
      rw [← List.cons_append, ← List.append_assoc] at hl
      obtain ⟨rfl, hlast⟩ := List.append_inj' hl rfl
      cases hlast
      simp only [List.mem_append, List.mem_singleton] at hlater
      exact .inr ⟨⟨past, o', later, rfl, hraises, fun x hx => hlater x (.inl hx)⟩,
        hlater o (.inr rfl)⟩
  · rintro (hraises | ⟨⟨past, o', later, rfl, hraises, hlater⟩, hsettles⟩)
    · exact ⟨l, o, [], rfl, hraises, by simp⟩
    · refine ⟨past, o', later ++ [o], by simp, hraises, ?_⟩
      intro x hx
      rcases List.mem_append.mp hx with hx | hx
      · exact hlater x hx
      · rw [List.mem_singleton.mp hx]
        exact hsettles

/-- An interrupt is pending if it has been raised and not been withdrawn since. -/
theorem undergo_nmiPending (hn : d.regs.nmiPending = false) (l : List Occurrence) :
    (d.undergo l).regs.nmiPending = true ↔ d.RaisedSince l := by
  induction l using List.reverseRecOn with
  | nil =>
    refine iff_of_false (by simpa [undergo] using hn) ?_
    rintro ⟨past, o, later, hl, -⟩
    simp at hl
  | append_singleton l o ih =>
    rw [undergo_concat, occur_nmiPending (undergo_line_le h l), raisedSince_concat, ← ih]
    simp

/-- Interrupts delivered, and the one that may be pending, have all been raised, each on an occasion
of its own. -/
theorem delivered_le_raised (hn : d.regs.nmiPending = false) (l : List Occurrence) :
    d.delivered l + (d.undergo l).regs.nmiPending.toNat ≤ d.raised l := by
  induction l using List.reverseRecOn with
  | nil => simp [delivered, raised, history, undergo, hn]
  | append_singleton l o ih =>
    have ho := occur_delivers (undergo_line_le h l) o
    rw [undergo_concat]
    simp only [delivered, raised, history_concat, List.countP_append, List.countP_singleton] at ih ⊢
    omega

end Run

/-- **The vblank flag and its interrupt follow their history.**  Let anything happen to a machine
from power-on: ticks, new frames, accesses at any address, resets of the bus, and interrupts taken.
It is in vblank exactly if the latest of the events that decide about that is a reset or the
beginning of vblank.  An interrupt is pending exactly if one has been raised since it was last
taken or the unit was last reset.  So whenever the processor asked for an interrupt, it was given
one exactly if one had been raised and not withdrawn; and it never was given more than had been
raised. -/
theorem powerOn_history (cpu : Processor.Cpu) (cart : κ) (journal : Journal) (sink : σ)
    (l : List Occurrence) :
    let start := powerOn cpu cart journal sink
    let latest := (start.vblankEvents l).getLast?
    ((start.undergo l).regs.status.inVblank = true ↔
        latest = some .reset ∨ latest = some .beginning) ∧
      ((start.undergo l).regs.nmiPending = true ↔ start.RaisedSince l) ∧
      (∀ past later, l = past ++ .takeNmi :: later →
        ((start.undergo past).delivers .takeNmi = true ↔ start.RaisedSince past)) ∧
      start.delivered l ≤ start.raised l := by
  intro start latest
  have hline : start.raster.beam.line ≤ Beam.preparing := by
    show 0 ≤ 261
    omega
  have hpending (l : List Occurrence) := undergo_nmiPending hline rfl l
  refine ⟨?_, hpending l, ?_, ?_⟩
  · have hlatest : latest = some (((start.history l).filterMap fun e =>
        e.1.vblankEvent e.2).getLast?.getD .reset) := List.getLast?_cons
    rw [undergo_inVblank hline l, hlatest]
    cases ((start.history l).filterMap fun e => e.1.vblankEvent e.2).getLast? with
    | none => exact iff_of_true rfl (.inl rfl)
    | some e => cases e <;> simp [VblankEvent.inVblank]
  · intro past later _
    exact hpending past
  · have hcount := delivered_le_raised hline rfl l
    omega

end Drawing

end Famicom
