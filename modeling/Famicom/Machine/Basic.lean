import Famicom.Bus
import Famicom.Journal

/-!
# Processor and bus

A machine is a processor, the bus it works on and the journal of what happens.  The processor's
accesses to the bus may be refused (`Exec.read`, `Exec.write`): a register of the picture unit is
not touched while the picture lags behind.
-/

namespace Famicom

open Processor

/-- A processor at work. -/
structure Machine (κ : Type) where
  cpu : Cpu
  bus : Bus κ
  journal : Journal := {}

/-- Why an instruction ends early. -/
inductive Trap where
  /-- the picture has to be brought up to date first -/
  | wait
  /-- the processor stops for good -/
  | jam
  deriving DecidableEq, Repr

/-- Something that a machine does and that may end early. -/
abbrev Exec (κ : Type) := EStateM Trap (Machine κ)

namespace Machine

variable {κ : Type}

def record (m : Machine κ) (e : Event) : Machine κ := { m with journal := m.journal.record e }

/-- Changes what instructions work on. -/
def onCore (m : Machine κ) (f : Core → Core) : Machine κ :=
  let ⟨cpu, bus, journal⟩ := m
  ⟨{ cpu with toCore := f cpu.toCore }, bus, journal⟩

@[simp] theorem record_cpu (m : Machine κ) (e : Event) : (m.record e).cpu = m.cpu := rfl

@[simp] theorem record_bus (m : Machine κ) (e : Event) : (m.record e).bus = m.bus := rfl

@[simp] theorem onCore_cpu (m : Machine κ) (f : Core → Core) :
    (m.onCore f).cpu = { m.cpu with toCore := f m.cpu.toCore } := rfl

@[simp] theorem onCore_bus (m : Machine κ) (f : Core → Core) : (m.onCore f).bus = m.bus := rfl

variable [Cartridge κ]

/-- Writes an address regardless of the picture, noting what the cartridge has to say about it. -/
def write (m : Machine κ) (address : UInt16) (byte : UInt8) : Machine κ :=
  let ⟨cpu, bus, journal⟩ := m
  let journal := match bus.remark address byte with
    | some r => journal.record (.remark r)
    | none => journal
  ⟨cpu, bus.write address byte, journal⟩

@[simp] theorem write_cpu (m : Machine κ) (address : UInt16) (byte : UInt8) :
    (m.write address byte).cpu = m.cpu := rfl

@[simp] theorem write_bus (m : Machine κ) (address : UInt16) (byte : UInt8) :
    (m.write address byte).bus = m.bus.write address byte := rfl

/-! ### Game Genie -/

/-- Arms a code in place of the one armed before; a code that cannot be read changes nothing. -/
def arm (m : Machine κ) (code : String) : Except Error (Machine κ) := do
  let patch ← GameGenie.decode code
  let m := { m with bus := { m.bus with gameGenie := some patch } }
  return m.record (.codeArmed code patch)

def disarm (m : Machine κ) : Machine κ :=
  if m.bus.gameGenie.isSome then
    { m with bus := { m.bus with gameGenie := none } }.record .codeCleared
  else m

end Machine

namespace Exec

variable {κ : Type}

/-- An access to an address would touch the picture before it is up to date. -/
def mustWait (m : Machine κ) (address : UInt16) : Bool := isRegister address && m.cpu.sync.mustWait

theorem mustWait_of_sync {m : Machine κ} {address : UInt16} (h : m.cpu.sync.mustWait = true) :
    mustWait m address = isRegister address := by
  simp [mustWait, h]

theorem not_mustWait_of_sync {m : Machine κ} {address : UInt16}
    (h : m.cpu.sync.mustWait = false) : mustWait m address = false := by
  simp [mustWait, h]

variable [Cartridge κ] {m : Machine κ} {address : UInt16} {byte : UInt8}

def read (address : UInt16) : Exec κ UInt8 := fun m =>
  if mustWait m address then .error .wait m
  else
    let ⟨cpu, bus, journal⟩ := m
    let ⟨byte, bus⟩ := bus.read address
    .ok byte ⟨cpu, bus, journal⟩

theorem read_of_mustWait (h : mustWait m address = true) : read address m = .error .wait m := by
  simp [read, h]

theorem read_of_not_mustWait (h : mustWait m address = false) :
    read address m = .ok (m.bus.read address).1 { m with bus := (m.bus.read address).2 } := by
  simp [read, h]

def write (address : UInt16) (byte : UInt8) : Exec κ Unit := fun m =>
  if mustWait m address then .error .wait m else .ok () (m.write address byte)

theorem write_of_mustWait (h : mustWait m address = true) :
    write address byte m = .error .wait m := by
  simp [write, h]

theorem write_of_not_mustWait (h : mustWait m address = false) :
    write address byte m = .ok () (m.write address byte) := by
  simp [write, h]

end Exec

end Famicom
