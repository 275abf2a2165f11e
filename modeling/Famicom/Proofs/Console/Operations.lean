import Famicom.Proofs.Console.Reachable

/-!
# A console in use

What can be asked of a console, one after another (`Operation`, `Console.after`).  An operation that
fails leaves the console as it is.
-/

namespace Famicom

open Picture

/-- What can be asked of a console. -/
inductive Operation : Type 1 where
  | frame {σ : Type} [PixelSink σ] (sink : σ)
  | reset
  | save
  | restore
  | arm (code : String)
  | disarm
  | connect (socket : Nat) (pad : Joypad)
  | disconnect (socket : Nat)

/-- An operation of mere playing: it neither saves nor restores and changes nothing that is
plugged in. -/
def Operation.Plays : Operation → Prop
  | frame _ | reset => True
  | _ => False

namespace Console

variable {κ : Type} {c : Console κ}

def onBus (c : Console κ) (f : Bus κ → Bus κ) : Console κ :=
  { c with machine := { c.machine with bus := f c.machine.bus } }

/-- What has become of a console that may have refused. -/
def orElse (c : Console κ) : Except Error (Console κ) → Console κ
  | .ok c' => c'
  | .error _ => c

variable [Cartridge κ]

def perform (c : Console κ) : Operation → Console κ
  | @Operation.frame _ _ sink => (c.runFrame sink).2.1
  | .reset => c.reset
  | .save => c.save
  | .restore => c.orElse c.restore
  | .arm code => c.orElse (c.arm code)
  | .disarm => c.disarm
  | .connect socket pad => c.onBus (·.connect socket pad)
  | .disconnect socket => c.onBus (·.disconnect socket)

def after (c : Console κ) (ops : List Operation) : Console κ := ops.foldl perform c

/-! ### What an operation comes to -/

theorem perform_restore_eq (c : Console κ) :
    c.perform .restore = c ∨ ∃ s journal, c.snapshot = some s ∧ c.perform .restore =
      (take { c with snapshot := none } s).withCode c.machine.bus.gameGenie journal := by
  rw [perform]
  cases hr : c.restore with
  | error e => exact .inl rfl
  | ok c' =>
    obtain ⟨s, journal, hs, rfl⟩ := eq_take_of_restore hr
    exact .inr ⟨s, journal, hs, rfl⟩

theorem perform_arm_eq (c : Console κ) (code : String) :
    ∃ genie journal, c.perform (.arm code) = c.withCode genie journal := by
  rw [perform]
  cases ha : c.arm code with
  -- a console that refuses keeps the code it has
  | error e => exact ⟨c.machine.bus.gameGenie, c.machine.journal, rfl⟩
  | ok c' =>
    obtain ⟨patch, journal, rfl⟩ := eq_withCode_of_arm ha
    exact ⟨some patch, journal, rfl⟩

theorem perform_disarm_eq (c : Console κ) :
    ∃ genie journal, c.perform .disarm = c.withCode genie journal := c.disarm_eq_withCode

theorem perform_connect_eq (c : Console κ) (socket : Nat) (pad : Joypad) :
    ∃ pads, c.perform (.connect socket pad) = c.onBus ({ · with pads }) := by
  rw [perform, onBus, Bus.connect]
  split
  · exact ⟨_, rfl⟩
  · exact ⟨c.machine.bus.pads, rfl⟩

theorem perform_disconnect_eq (c : Console κ) (socket : Nat) :
    ∃ pads, c.perform (.disconnect socket) = c.onBus ({ · with pads }) := by
  rw [perform, onBus, Bus.disconnect]
  split
  · exact ⟨_, rfl⟩
  · exact ⟨c.machine.bus.pads, rfl⟩

/-! ### Operations, one after another -/

theorem after_concat (c : Console κ) (ops : List Operation) (op : Operation) :
    c.after (ops ++ [op]) = (c.after ops).perform op := by
  rw [after, List.foldl_append]
  rfl

/-- What every operation of a kind keeps, a sequence of them keeps. -/
theorem after_keeps {P : Console κ → Prop} {Q : Operation → Prop}
    (hstep : ∀ c op, Q op → P c → P (c.perform op)) {ops : List Operation} (hops : ∀ op ∈ ops, Q op)
    (h : P c) : P (c.after ops) := by
  induction ops generalizing c with
  | nil => exact h
  | cons op ops ih =>
    obtain ⟨hop, hrest⟩ := List.forall_mem_cons.mp hops
    exact ih hrest (hstep c op hop h)

/-- Whatever is asked of a console, it is one that it can come to. -/
theorem Reachable.perform (h : Reachable c) (op : Operation) : Reachable (c.perform op) := by
  cases op with
  | frame sink => exact h.frame sink
  | reset => exact h.reset
  | save => exact h.save
  | restore =>
    show Reachable (c.orElse c.restore)
    cases hr : c.restore with
    | error e => exact h
    | ok c' => exact h.restore hr
  | arm code =>
    show Reachable (c.orElse (c.arm code))
    cases hr : c.arm code with
    | error e => exact h
    | ok c' => exact h.arm hr
  | disarm => exact h.disarm
  | connect socket pad =>
    obtain ⟨pads, heq⟩ := c.perform_connect_eq socket pad
    rw [heq]
    exact h.pads pads
  | disconnect socket =>
    obtain ⟨pads, heq⟩ := c.perform_disconnect_eq socket
    rw [heq]
    exact h.pads pads

theorem Reachable.after (h : Reachable c) (ops : List Operation) : Reachable (c.after ops) :=
  after_keeps (Q := fun _ => True) (fun _ op _ h => h.perform op) (fun _ _ => trivial) h

end Console

end Famicom
