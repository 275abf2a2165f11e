import Famicom.Console.Basic

/-!
# Snapshots

A console can put its machine aside and take it up again, once.  Pads, the Game Genie and the
report of a halt belong to the console and are not part of it.
-/

namespace Famicom.Console

variable {κ : Type} [Cartridge κ]

/-- The machine as it stands. -/
def capture (c : Console κ) : Snapshot κ where
  cpu := c.machine.cpu
  ram := c.machine.bus.ram
  video := c.machine.bus.video
  raster := c.raster
  cartridge := c.machine.bus.cartridge

/-- Puts the machine aside, in place of what was put aside before. -/
def save (c : Console κ) : Console κ :=
  { c with
    snapshot := some c.capture
    machine := c.machine.record (.saved c.machine.cpu.pc) }

/-- The console with the machine of a snapshot. -/
def take (c : Console κ) (s : Snapshot κ) : Console κ :=
  { c with
    machine := { c.machine with
      cpu := s.cpu
      bus := { c.machine.bus with ram := s.ram, video := s.video, cartridge := s.cartridge } }
    raster := s.raster }

/-- Takes up the machine that was put aside; the snapshot is used up. -/
def restore (c : Console κ) : Except Error (Console κ) :=
  match c.snapshot with
  | none => .error .noSnapshot
  | some s =>
    let c := { c with snapshot := none }.take s
    .ok { c with machine := c.machine.record (.restored s.cpu.pc) }

end Famicom.Console
