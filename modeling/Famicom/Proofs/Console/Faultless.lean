import Famicom.Proofs.Console.VblankHistory
import Famicom.Proofs.Picture.CheckedTicks

/-!
# The picture unit never faults

Let anything happen to a machine and its drawing from power-on: ticks, new frames, accesses to the
registers, transfers to the sprite list, interrupts taken, resets of the bus and of the raster.
Then every tick and every access passes all the checks of the picture unit, and the unit's numbers
stay in their bounds (`Drawing.powerOn_faultless`).

The accesses need no bounds to pass.  The ticks need those of `Picture.Scan.Bounded`, which hold at
power-on and which nothing that can happen breaks (`Drawing.Bounded.happen`).
-/

namespace Famicom

open Picture

/-! ### The bus with the picture unit's checks -/

namespace Bus

variable {κ : Type} [Cartridge κ]

def peek? (b : Bus κ) (address : UInt16) : Option UInt8 :=
  match Region.ofAddress address with
  | .register name => b.video.peekRegister? b.cartridge name
  | _ => some (b.peek address)

def read? (b : Bus κ) (address : UInt16) : Option (UInt8 × Bus κ) :=
  match Region.ofAddress address with
  | .register name => do
    let (byte, video) ← b.video.readRegister? b.cartridge name
    return (byte, { b with video })
  | _ => some (b.read address)

/-- Copies a page into the sprite list; the page may be one of the picture unit's registers. -/
def transfer? (b : Bus κ) (page : UInt8) : Option (Bus κ) := do
  let bytes ← Vector.ofFnM fun k : Fin 0x100 => b.peek? (wordOf page (.ofFin k))
  let video ← b.video.transfer? bytes
  return { b with video, stall := b.stall + transferCycles }

def write? (b : Bus κ) (address : UInt16) (byte : UInt8) : Option (Bus κ) :=
  match Region.ofAddress address with
  | .register name => do
    let video ← b.video.writeRegister? name byte
    return { b with cartridge := b.video.writeThrough b.cartridge name byte, video }
  | .transfer => b.transfer? byte
  | _ => some (b.write address byte)

variable (b : Bus κ) (address : UInt16)

theorem peek?_eq : b.peek? address = some (b.peek address) := by
  unfold peek?
  split
  · rename_i name hregion
    rw [Video.peekRegister?_eq, peek, hregion]
  · rfl

theorem read?_eq : b.read? address = some (b.read address) := by
  unfold read?
  split
  · rename_i name hregion
    rw [Video.readRegister?_eq, read, hregion]
    rfl
  · rfl

theorem transfer?_eq (page : UInt8) : b.transfer? page = some (b.transfer page) := by
  have hbytes : (Vector.ofFnM fun k : Fin 0x100 => b.peek? (wordOf page (.ofFin k))) =
      some (.ofFn fun k => b.peek (wordOf page (.ofFin k))) := by
    simp only [peek?_eq]
    exact Vector.ofFnM_pure
  rw [transfer?, hbytes]
  dsimp only [Option.bind_eq_bind, Option.bind_some]
  rw [Video.transfer?_eq b.video fun i => b.peek (wordOf page i)]
  rfl

theorem write?_eq (byte : UInt8) : b.write? address byte = some (b.write address byte) := by
  unfold write?
  split
  · rename_i name hregion
    rw [Video.writeRegister?_eq, write, hregion]
    rfl
  · rename_i hregion
    rw [transfer?_eq, write, hregion]
  · rfl

variable {b}

theorem read_bounded (h : b.video.regs.Bounded) : (b.read address).2.video.regs.Bounded := by
  by_cases hregister : isRegister address = true
  · rw [read_of_register (Region.ofAddress_of_isRegister hregister)]
    exact h.afterRead _
  · rw [read_of_not_isRegister (Bool.not_eq_true _ ▸ hregister)]
    exact h

theorem write_bounded (h : b.video.regs.Bounded) (byte : UInt8) :
    (b.write address byte).video.regs.Bounded := by
  by_cases hregister : isRegister address = true
  · rw [write_of_register (Region.ofAddress_of_isRegister hregister)]
    exact h.writeRegister _ byte
  · rw [write_regs_of_not_isRegister (Bool.not_eq_true _ ▸ hregister)]
    exact h

end Bus

/-! ### What happens -/

/-- What can happen to a machine and the drawing of its picture, with the reset of the raster. -/
inductive PictureEvent where
  | occurs (o : Occurrence)
  | rasterReset
  deriving DecidableEq, Repr

namespace Drawing

variable {κ σ : Type} [Cartridge κ] [PixelSink σ]

def happen (d : Drawing κ σ) : PictureEvent → Drawing κ σ
  | .occurs o => d.occur o
  | .rasterReset => { d with raster := {} }

def course (d : Drawing κ σ) (l : List PictureEvent) : Drawing κ σ := l.foldl happen d

/-- An event with the picture unit's checks; those in which it does not compute pass. -/
def happen? (d : Drawing κ σ) : PictureEvent → Option (Drawing κ σ)
  | .occurs (.incident .tick) => do
    let s ← Scan.step? d.machine.bus.cartridge d.machine.bus.video.memory d.scan
    return d.setScan s
  | .occurs (.incident (.read address)) => do
    let (_, bus) ← d.machine.bus.read? address
    return { d with machine := { d.machine with bus } }
  | .occurs (.incident (.write address byte)) => do
    let bus ← d.machine.bus.write? address byte
    return { d with machine := { d.machine.write address byte with bus } }
  | e => some (d.happen e)

/-- Several events, each with the checks; the first that fails ends them. -/
def course? (d : Drawing κ σ) (l : List PictureEvent) : Option (Drawing κ σ) := l.foldlM happen? d

/-- What a tick of the drawing works on is in bounds. -/
structure Bounded (d : Drawing κ σ) : Prop where
  raster : d.raster.Bounded
  regs : d.regs.Bounded

variable {d : Drawing κ σ}

omit [PixelSink σ] in
theorem Bounded.powerOn (cpu : Processor.Cpu) (cart : κ) (journal : Journal) (sink : σ) :
    (powerOn cpu cart journal sink).Bounded := ⟨.initial, .initial⟩

/-- **Nothing that can happen breaks the bounds.** -/
theorem Bounded.happen (h : d.Bounded) (e : PictureEvent) : (d.happen e).Bounded := by
  cases e with
  | rasterReset => exact ⟨.initial, h.regs⟩
  | occurs o =>
    cases o with
    | incident e =>
      cases e with
      | tick =>
        have hstep : (d.scan.step d.machine.bus.cartridge d.machine.bus.video.memory).Bounded :=
          Scan.Bounded.step ⟨h.raster, h.regs⟩
        exact ⟨hstep.raster, hstep.regs⟩
      | read address => exact ⟨h.raster, d.machine.bus.read_bounded address h.regs⟩
      | write address byte => exact ⟨h.raster, d.machine.bus.write_bounded address h.regs byte⟩
    | beginFrame => exact ⟨h.raster.beginFrame, h.regs⟩
    | reset => exact ⟨h.raster, .initial⟩
    | takeNmi => exact ⟨h.raster, ⟨h.regs.v, h.regs.t, h.regs.fineX⟩⟩

/-- Within the bounds every event passes its checks. -/
theorem Bounded.happen?_eq (h : d.Bounded) (e : PictureEvent) :
    d.happen? e = some (d.happen e) := by
  cases e with
  | rasterReset => rfl
  | occurs o =>
    cases o with
    | incident e =>
      cases e with
      | tick =>
        rw [happen?, Scan.step?_eq ⟨h.raster, h.regs⟩]
        rfl
      | read address =>
        rw [happen?, Bus.read?_eq]
        rfl
      | write address byte =>
        rw [happen?, Bus.write?_eq]
        rfl
    | beginFrame => rfl
    | reset => rfl
    | takeNmi => rfl

/-- Whatever happens, in whatever order, passes its checks and keeps the bounds. -/
theorem Bounded.course (h : d.Bounded) (l : List PictureEvent) :
    d.course? l = some (d.course l) ∧ (d.course l).Bounded := by
  induction l generalizing d with
  | nil => exact ⟨rfl, h⟩
  | cons e l ih =>
    obtain ⟨hcourse, hbounded⟩ := ih (h.happen e)
    refine ⟨?_, hbounded⟩
    show (d.happen? e >>= fun d => d.course? l) = _
    rw [h.happen?_eq e]
    exact hcourse

/-- **No tick and no access to a register can fault.**  From power-on, whatever happens passes every
check of the picture unit.  Both of its addresses keep to fifteen bits and the column to a tile;
there are never more than eight sprites of a line or of the next, each found one is eight or sixteen
lines high and shows a row within it; and the bit planes that are fetched for the background and for
the sprites, the second eight bytes after the first, lie below the nametables. -/
theorem powerOn_faultless (cpu : Processor.Cpu) (cart : κ) (journal : Journal) (sink : σ)
    (l : List PictureEvent) :
    let start := Drawing.powerOn cpu cart journal sink
    let d := start.course l
    let u := d.raster.sprites
    start.course? l = some d ∧
      (d.regs.v.toNat < 0x8000 ∧ d.regs.t.toNat < 0x8000 ∧ d.regs.fineX ≤ 7) ∧
      (u.slotCount ≤ 8 ∧ u.foundCount ≤ 8 ∧
        ∀ k : Fin 8, k.val < u.foundCount →
          let s := u.found.get k
          (s.height = 8 ∨ s.height = 16) ∧ s.row < s.height) ∧
      (d.raster.background.planeAddress d.regs).toNat + 8 < 0x2000 ∧
        (u.planeAddress d.regs.control).toNat + 8 < 0x2000 := by
  intro start d u
  obtain ⟨hcourse, hraster, hregs⟩ := (Bounded.powerOn cpu cart journal sink).course l
  have hu : u.Bounded := hraster.sprites
  refine ⟨hcourse, ⟨?_, ?_, hregs.fineX⟩, ⟨hu.slotCount, hu.foundCount, ?_⟩, ?_, ?_⟩
  · exact (ScrollAddress.toNat_lt_iff _).mpr hregs.v
  · exact (ScrollAddress.toNat_lt_iff _).mpr hregs.t
  · exact fun k hk => ⟨(hu.found k hk).height, (hu.found k hk).row⟩
  · exact d.raster.background.planeAddress_lt d.regs
  · exact hu.planeAddress_lt _

end Drawing

end Famicom
