import Famicom.Console.Views
import Famicom.Proofs.Console.Lockstep
import Famicom.Proofs.Console.Operations

/-!
# The layout of the nametables is never out of date

The picture unit goes by the layout that it was last told, and is told again only when the processor
writes to the cartridge and at a reset.  For a cartridge that changes its layout at no other moment
(`Cartridge.Overt`) that is enough: whatever is done to a console, the unit goes by the layout that
the cartridge has now, and every access to the nametables reaches the cell where that layout puts it
(`Console.treatAll_follows`).  A snapshot carries the unit and the cartridge together, so it may
bring an old layout back, but never one without the other.
-/

namespace Famicom

open Picture

/-- The banks behind the four logical nametables. -/
def Layout.places : Layout → List Nat
  | horizontal => [0, 0, 1, 1]
  | vertical => [0, 1, 0, 1]
  | oneScreenLow => [0, 0, 0, 0]
  | oneScreenHigh => [1, 1, 1, 1]
  | fourScreen => [0, 1, 2, 3]

theorem Layout.places_eq (m : Layout) : m.map.toList.map Fin.val = m.places := by
  cases m <;> rfl

/-- The cell behind an offset of a logical nametable; tables and offsets repeat. -/
def Layout.cell (m : Layout) (table offset : Nat) : Nat :=
  m.places.getD (table % 4) 0 * 1024 + offset % 1024

/-- The cell behind an address of the picture unit. -/
def Layout.cellAt (m : Layout) (address : UInt16) : Nat :=
  m.cell (address.toNat / 1024) address.toNat

theorem Layout.cell_lt (m : Layout) (table offset : Nat) : m.cell table offset < 4096 := by
  have hplace : ∀ i < 4, m.places.getD i 0 < 4 := by cases m <;> decide
  have := hplace (table % 4) (Nat.mod_lt _ (by decide))
  unfold cell
  omega

namespace Picture.Memory

/-- The nametables answer at the address. -/
def InTables (address : UInt16) : Prop := 0x2000 ≤ address &&& 0x3FFF ∧ address &&& 0x3FFF < 0x3F00

/-- The nametables are where the cartridge's layout puts them, for all that have access to them:
reads and writes at an address, and views of a table. -/
structure Follows {κ : Type} [Cartridge κ] (m : Memory) (cart : κ) : Prop where
  layout : m.layout = Cartridge.layout cart
  map : m.map.toList.map Fin.val = (Cartridge.layout cart).places
  read (colours : UInt8) (address : UInt16) (h : InTables address) :
    m.nametables[(Cartridge.layout cart).cellAt address]? = some (m.read cart colours address)
  write (address : UInt16) (byte : UInt8) (h : InTables address) (i : Nat) :
    (m.write address byte).nametables[i]? =
      if i = (Cartridge.layout cart).cellAt address then some byte else m.nametables[i]?
  view (table offset : Nat) :
    m.nametables[(Cartridge.layout cart).cell table offset]? = some (m.tableByteAt table offset)

theorem tableCell_val (layout : Layout) (table : Fin 4) (offset : Fin 0x400) :
    (tableCell layout.map table offset).val = layout.cell table.val offset.val := by
  have hbank : ∀ table : Fin 4,
      (layout.map.get table).val = layout.places.getD (table.val % 4) 0 := by
    cases layout <;> decide
  show 0x400 * (layout.map.get table).val + offset.val = _
  rw [hbank, Layout.cell, Nat.mod_eq_of_lt offset.isLt, Nat.mul_comm]

theorem addressCell_val (layout : Layout) (address : UInt16) :
    (addressCell layout.map (wrapAddress address)).val = layout.cellAt address := by
  rw [addressCell, tableCell_val]
  show layout.cell ((wrapAddress address).toNat / 1024 % 4) ((wrapAddress address).toNat % 1024) = _
  rw [toNat_wrapAddress]
  unfold Layout.cellAt Layout.cell
  -- the two bits above the 14 of an address say nothing about the table
  have htable : address.toNat % 0x4000 / 1024 % 4 % 4 = address.toNat / 1024 % 4 := by omega
  have hoffset : address.toNat % 0x4000 % 1024 % 1024 = address.toNat % 1024 := by omega
  rw [htable, hoffset]

section Follows

variable {κ : Type} [Cartridge κ] {m : Memory} {cart : κ}

theorem not_pattern_of_inTables {address : UInt16} (h : InTables address) :
    ¬ wrapAddress address < 0x2000 ∧ wrapAddress address < 0x3F00 :=
  ⟨UInt16.not_lt.mpr h.1, h.2⟩

/-- Everything follows from the layout that the unit goes by. -/
theorem Follows.of_layout (h : m.layout = Cartridge.layout cart) : m.Follows cart where
  layout := h
  map := by
    rw [m.map_eq, h, Layout.places_eq]
  read colours address hin := by
    obtain ⟨hpattern, htables⟩ := not_pattern_of_inTables hin
    have hread : m.read cart colours address =
        m.nametables[addressCell m.map (wrapAddress address)] := by
      simp only [Memory.read, if_neg hpattern, if_pos htables]
    rw [hread, ← h, ← addressCell_val, ← m.map_eq]
    exact Vector.getElem?_eq_getElem _
  write address byte hin i := by
    obtain ⟨hpattern, htables⟩ := not_pattern_of_inTables hin
    have hwrite : (m.write address byte).nametables =
        m.nametables.set (addressCell m.map (wrapAddress address)) byte := by
      simp only [Memory.write, if_neg hpattern, if_pos htables]
    rw [hwrite, ← h, ← addressCell_val, ← m.map_eq, Vector.getElem?_set]
    simp only [eq_comm]
  view table offset := by
    have hcell : (tableCell m.map ⟨table % 4, Nat.mod_lt _ (by decide)⟩
        ⟨offset % 0x400, Nat.mod_lt _ (by decide)⟩).val =
          (Cartridge.layout cart).cell table offset := by
      rw [m.map_eq, tableCell_val, h]
      simp only [Layout.cell, Nat.mod_mod]
    rw [← hcell]
    exact Vector.getElem?_eq_getElem _

end Follows

end Picture.Memory

/-! ### What is done to a console -/

/-- What can be done to a console, to its bus, and to the drawing of its picture. -/
inductive Treatment : Type 1 where
  | read (address : UInt16)
  | write (address : UInt16) (byte : UInt8)
  /-- a page is copied into the sprite list -/
  | transfer (page : UInt8)
  | ticks {σ : Type} [PixelSink σ] (sink : σ) (n : Nat)
  /-- the reset line of the bus -/
  | resetBus
  /-- a step of the machine -/
  | step
  /-- what can be asked of a console: among others a frame, a reset, to save and to restore -/
  | ask (op : Operation)

namespace Console

variable {κ : Type} [Cartridge κ] {c : Console κ}

def treat (c : Console κ) : Treatment → Console κ
  | .read address => c.onBus fun b => (b.read address).2
  | .write address byte => c.onBus (·.write address byte)
  | .transfer page => c.onBus (·.transfer page)
  | @Treatment.ticks _ _ sink n =>
    let d := (Drawing.mk c.machine c.raster sink).ticks n
    { c with machine := d.machine, raster := d.raster }
  | .resetBus => c.onBus (·.reset)
  | .step => { c with machine := c.machine.step.2 }
  | .ask op => c.perform op

def treatAll (c : Console κ) (l : List Treatment) : Console κ := l.foldl treat c

namespace LaidOut

theorem onBus (h : c.LaidOut) (f : Bus κ → Bus κ) (hf : (f c.machine.bus).LaidOut) :
    (c.onBus f).LaidOut := ⟨hf, h.saved⟩

variable [Cartridge.Overt κ]

theorem perform (h : c.LaidOut) (op : Operation) : (c.perform op).LaidOut := by
  cases op with
  | frame sink => exact h.frame sink
  | reset => exact .reset h.saved
  | save => exact h.save
  | restore =>
    show (c.orElse c.restore).LaidOut
    cases hr : c.restore with
    | error e => exact h
    | ok c' => exact h.restore hr
  | arm code =>
    obtain ⟨genie, journal, heq⟩ := c.perform_arm_eq code
    rw [heq]
    exact h.withCode genie journal
  | disarm => exact h.disarm
  | connect socket pad =>
    obtain ⟨pads, heq⟩ := c.perform_connect_eq socket pad
    rw [heq]
    exact h.onBus ({ · with pads }) h.machine
  | disconnect socket =>
    obtain ⟨pads, heq⟩ := c.perform_disconnect_eq socket
    rw [heq]
    exact h.onBus ({ · with pads }) h.machine

/-- Nothing that is done to a console parts the unit's layout from the cartridge's. -/
theorem treat (h : c.LaidOut) (t : Treatment) : (c.treat t).LaidOut := by
  cases t with
  | read address => exact h.onBus (fun b => (b.read address).2) (Bus.read_laidOut h.machine)
  | write address byte => exact h.onBus (·.write address byte) (Bus.write_laidOut h.machine)
  | transfer page => exact h.onBus (·.transfer page) (Bus.transfer_laidOut h.machine page)
  | ticks sink n => exact ⟨h.machine, h.saved⟩
  | resetBus => exact h.onBus (·.reset) rfl
  | step => exact ⟨Machine.step_laidOut h.machine, h.saved⟩
  | ask op => exact h.perform op

theorem treatAll (h : c.LaidOut) (l : List Treatment) : (c.treatAll l).LaidOut := by
  induction l generalizing c with
  | nil => exact h
  | cons t l ih => exact ih (h.treat t)

end LaidOut

/-- **The layout of the nametables is never out of date.**  Start with any cartridge on a new bus
and let anything be done, in any order: accesses of the processor, transfers, ticks of the drawing,
steps, whole frames, resets, saving and restoring.  If the cartridge's layout changes only at a
write or a reset, then the picture unit goes by the layout that the cartridge has now, and finds
every byte of the nametables where that layout puts it, within the four banks. -/
theorem treatAll_follows [Cartridge.Overt κ] (cart : κ) (cpu : Processor.Cpu) (journal : Journal)
    (raster : Raster) (settings : Settings) (halt : Option Halt) (l : List Treatment) :
    let start : Console κ :=
      { machine := { cpu, bus := .plug cart, journal }, raster, settings, halt }
    let bus := (start.treatAll l).machine.bus
    bus.video.memory.Follows bus.cartridge ∧
      ∀ table offset, (Cartridge.layout bus.cartridge).cell table offset < 4096 := by
  intro start bus
  have hstart : start.LaidOut := ⟨rfl, fun s hs => by cases hs⟩
  exact ⟨.of_layout (hstart.treatAll l).machine, Layout.cell_lt _⟩

end Console

/-- A board that can do no more than to change its layout, between two of them by the lowest bit of a
byte written to it and to a third at a reset. -/
structure LayoutSwitch where
  layout : Layout

namespace LayoutSwitch

instance : Cartridge LayoutSwitch where
  read _ _ := 0
  write _ _ byte := ⟨if bit byte 0 then .vertical else .horizontal⟩
  readPattern _ _ := 0
  writePattern c _ _ := c
  layout c := c.layout
  reset _ := ⟨.oneScreenLow⟩

instance : Cartridge.Overt LayoutSwitch where
  layout_writePattern _ _ _ := rfl

end LayoutSwitch

namespace Console

/-- The layout was switched twice, and a snapshot taken in between is taken up again: the first
layout is back, and the unit goes by it. -/
theorem layoutSwitch_follows :
    let start : Console LayoutSwitch :=
      { machine := { cpu := {}, bus := .plug ⟨.fourScreen⟩, journal := {} } }
    let bus := (start.treatAll
      [.write 0x8000 1, .ask .save, .write 0x8000 0, .ask .restore]).machine.bus
    Cartridge.layout bus.cartridge = .vertical ∧ bus.video.memory.Follows bus.cartridge :=
  ⟨rfl, (treatAll_follows (LayoutSwitch.mk .fourScreen) {} {} {} {} none
    [.write 0x8000 1, .ask .save, .write 0x8000 0, .ask .restore]).1⟩

end Console

end Famicom
