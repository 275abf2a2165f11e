import Famicom.Console.Snapshot
import Famicom.Console.Views
import Famicom.Proofs.Machine.Program
import Famicom.Proofs.Bus.Frame
import Famicom.Proofs.Machine.Rollback
import Famicom.Proofs.Machine.Retry
import Famicom.Proofs.Machine.Polling
import Famicom.Proofs.Machine.Cost
import Famicom.Proofs.Picture.Ticks
import Famicom.Proofs.Console.Drawing
import Famicom.Proofs.Console.Reachable
import Famicom.Proofs.Console.Moments
import Famicom.Proofs.Console.Loops
import Famicom.Proofs.Bus.Apart
import Famicom.Proofs.Machine.Apart
import Famicom.Proofs.Console.Lockstep
import Famicom.Proofs.Picture.Shares
import Famicom.Proofs.Picture.Frame
import Famicom.Proofs.Picture.Sent
import Famicom.Proofs.Picture.Plane
import Famicom.Proofs.Picture.Shifting
import Famicom.Proofs.Picture.Background
import Famicom.Proofs.Picture.Scrolled
import Famicom.Proofs.Picture.Sprites
import Famicom.Proofs.Picture.SpritePixels
import Famicom.Proofs.Picture.SpriteFlags
import Famicom.Proofs.Picture.Alike
import Famicom.Proofs.Console.Schedule
import Famicom.Proofs.Console.Pictures
import Famicom.Proofs.Console.Operations
import Famicom.Proofs.Console.Replay
import Famicom.Proofs.Console.Halting
import Famicom.Proofs.Console.Transfers
import Famicom.Proofs.Console.VblankEntry
import Famicom.Proofs.Cartridge.Image
import Famicom.Proofs.Cartridge.History
import Famicom.Proofs.Console.Layouts
import Famicom.Proofs.Machine.Cycles
import Famicom.Proofs.Picture.Bounds
import Famicom.Proofs.Picture.Checked
import Famicom.Proofs.Picture.CheckedTicks
import Famicom.Proofs.Console.Faultless
import Famicom.Proofs.Processor.Arithmetic
import Famicom.Proofs.Machine.Operands
import Famicom.Proofs.Machine.Actions
import Famicom.Proofs.Machine.Instructions
import Famicom.Proofs.Machine.Sums
import Famicom.Proofs.Machine.Pairs
import Famicom.Proofs.Machine.Returns
import Famicom.Proofs.Machine.Calls
import Famicom.Proofs.Machine.Registers
import Famicom.Proofs.Machine.Footprint
import Famicom.Proofs.Machine.Stopping
import Famicom.Proofs.Console.StatusByte
import Famicom.Proofs.Console.Latched
import Famicom.Proofs.Picture.Cells
import Famicom.Proofs.Console.Uploads
import Famicom.Proofs.Bus.DataPort
import Famicom.Proofs.Console.ScrollProtocols
import Famicom.Proofs.Bus.SpriteList
import Famicom.Proofs.Bus.Peeking
import Famicom.Proofs.Cartridge.Codes
import Famicom.Proofs.Machine.Bursts
import Famicom.Proofs.Machine.Stack
import Famicom.Proofs.Bus.Pads
import Famicom.Proofs.Picture.Packed
import Famicom.Proofs.Console.Resets
import Famicom.Proofs.Console.Counters
