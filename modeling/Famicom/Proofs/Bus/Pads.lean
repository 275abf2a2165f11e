import Famicom.Proofs.Bus.Frame

/-!
# What the pads send

Pads are plugged into the two sockets and taken out again, their buttons are pressed and released,
and meanwhile the processor reads and writes whatever it likes (`PadEvent`).  What a read of a
socket gives follows from this history alone: from the buttons that are held now (`held`), from the
last write to the strobe (`strobed`) and from the number of reads of that socket since (`reads`).
So neither socket notices the other, nor any access to other addresses, among them a transfer of
sprites that passes over the sockets (`pads_follow`).

The functions of the history look back from its end, so they take it latest event first.
-/

namespace Famicom

/-- Something that is done to the buttons of a pad. -/
inductive ButtonChange where
  | set (buttons : UInt8)
  | press (buttons : UInt8)
  | release (buttons : UInt8)
  deriving DecidableEq, Repr

namespace ButtonChange

def apply : ButtonChange → Joypad → Joypad
  | set buttons => (·.setButtons buttons)
  | press buttons => (·.press buttons)
  | release buttons => (·.release buttons)

/-- The buttons that are held afterwards. -/
def held : ButtonChange → UInt8 → UInt8
  | set buttons, _ => buttons
  | press buttons, before => before ||| buttons
  | release buttons, before => before &&& ~~~buttons

end ButtonChange

namespace Joypad

/-- A pad that has been read a number of times since its strobe line was moved.  It counts no
further than to the last of its buttons. -/
def afterReads (strobe : Bool) (reads : Nat) (buttons : UInt8) : Joypad :=
  { buttons, strobe, shifted := if strobe then 0 else min 8 reads }

theorem poll_afterReads (strobe : Bool) (reads : Nat) (buttons : UInt8) :
    (afterReads strobe reads buttons).poll.2 = afterReads strobe (reads + 1) buttons := by
  cases strobe with
  | true => rfl
  | false =>
    simp only [afterReads, poll, Bool.false_or, Bool.false_eq_true, if_false, decide_eq_true_iff]
    split
    · rw [show min 8 reads = min 8 (reads + 1) by omega]
    · rw [show min 8 reads + 1 = min 8 (reads + 1) by omega]

theorem setStrobe_afterReads (strobe : Bool) (reads : Nat) (buttons : UInt8) (level : Bool) :
    (afterReads strobe reads buttons).setStrobe level = afterReads level 0 buttons := by
  cases level <;> rfl

theorem apply_afterReads (strobe : Bool) (reads : Nat) (buttons : UInt8) (change : ButtonChange) :
    change.apply (afterReads strobe reads buttons) =
      afterReads strobe reads (change.held buttons) := by
  cases change <;> rfl

theorem shifted_afterReads_le (strobe : Bool) (reads : Nat) (buttons : UInt8) :
    (afterReads strobe reads buttons).shifted ≤ 8 := by
  unfold afterReads
  split
  · exact Nat.zero_le 8
  · exact Nat.min_le_left 8 reads

theorem atBit_bit (b i : UInt8) : atBit (bit b i) 0 = (b >>> i) &&& 1 := by
  rw [bit]
  generalize b >>> i = b
  revert b
  decide +kernel

theorem line_afterReads (strobe : Bool) (reads : Nat) (buttons : UInt8) :
    atBit (afterReads strobe reads buttons).line 0 =
      if strobe then buttons &&& 1
      else if reads < 8 then (buttons >>> .ofNat reads) &&& 1
      else 1 := by
  cases strobe with
  | true =>
    show atBit (bit buttons 0) 0 = buttons &&& 1
    rw [atBit_bit, UInt8.shiftRight_zero]
  | false =>
    simp only [afterReads, line, Bool.false_eq_true, if_false]
    by_cases h : reads < 8
    · rw [Nat.min_eq_right (Nat.le_of_lt h), if_pos h, if_pos h, atBit_bit]
    · rw [Nat.min_eq_left (Nat.le_of_not_lt h), if_neg (Nat.lt_irrefl 8), if_neg h]
      rfl

end Joypad

def padAddress : Fin 2 → UInt16
  | 0 => 0x4016
  | 1 => 0x4017

theorem Region.ofAddress_padAddress (i : Fin 2) : ofAddress (padAddress i) = .pad i := by
  match i with
  | 0 => rfl
  | 1 => rfl

theorem Region.eq_padAddress {address : UInt16} {i : Fin 2} (h : ofAddress address = .pad i) :
    address = padAddress i := by
  have hi : ofAddress address = ofAddress (padAddress i) := h.trans (ofAddress_padAddress i).symm
  match i, ofAddress_eq_pad h with
  | 0, .inl h0 => exact h0
  | 1, .inr h1 => exact h1
  | 0, .inr h1 => subst h1; cases h
  | 1, .inl h0 => subst h0; cases h

/-! ### Histories -/

/-- What happens to the pads, or beside them. -/
inductive PadEvent where
  /-- the processor reads -/
  | read (address : UInt16)
  /-- the processor writes -/
  | write (address : UInt16) (byte : UInt8)
  /-- a new pad goes into a socket, with buttons held down -/
  | plug (socket : Fin 2) (buttons : UInt8)
  | unplug (socket : Fin 2)
  | change (socket : Fin 2) (change : ButtonChange)
  deriving DecidableEq, Repr

namespace PadEvent

/-- The buttons that are held on the pad in a socket, if there is one. -/
def held (i : Fin 2) : List PadEvent → Option UInt8
  | [] => none
  | plug j buttons :: past => if j = i then some buttons else held i past
  | unplug j :: past => if j = i then none else held i past
  | change j c :: past => if j = i then (held i past).map c.held else held i past
  | read _ :: past => held i past
  | write .. :: past => held i past

/-- The last write to the strobe since a pad was plugged in has raised it. -/
def strobed (i : Fin 2) : List PadEvent → Bool
  | [] => false
  | plug j _ :: past => if j = i then false else strobed i past
  | write address byte :: past => if address = 0x4016 then bit byte 0 else strobed i past
  | read _ :: past => strobed i past
  | unplug _ :: past => strobed i past
  | change .. :: past => strobed i past

/-- The number of reads of a socket since the last write to the strobe, or since a pad was plugged
in there. -/
def reads (i : Fin 2) : List PadEvent → Nat
  | [] => 0
  | plug j _ :: past => if j = i then 0 else reads i past
  | write address _ :: past => if address = 0x4016 then 0 else reads i past
  | read address :: past => if address = padAddress i then reads i past + 1 else reads i past
  | unplug _ :: past => reads i past
  | change .. :: past => reads i past

/-- What the next read of a socket gives. -/
def next (i : Fin 2) (past : List PadEvent) : UInt8 :=
  match held i past with
  | none => 0
  | some buttons =>
    if strobed i past then buttons &&& 1
    else if reads i past < 8 then (buttons >>> .ofNat (reads i past)) &&& 1
    else 1

def concerns (i : Fin 2) : PadEvent → Bool
  | read address => address = padAddress i
  | write address _ => address = 0x4016
  | plug j _ => j = i
  | unplug j => j = i
  | change j _ => j = i

/-! ### One socket -/

/-- What an event does to what is in a socket. -/
def onSocket (i : Fin 2) : PadEvent → Option Joypad → Option Joypad
  | read address, pad => if address = padAddress i then pad.map (·.poll.2) else pad
  | write address byte, pad => if address = 0x4016 then pad.map (·.setStrobe (bit byte 0)) else pad
  | plug j buttons, pad => if j = i then some { buttons } else pad
  | unplug j, pad => if j = i then none else pad
  | change j c, pad => if j = i then pad.map c.apply else pad

theorem onSocket_of_not_concerns {i : Fin 2} {e : PadEvent} (h : e.concerns i = false)
    (pad : Option Joypad) : e.onSocket i pad = pad := by
  cases e <;> exact if_neg (of_decide_eq_false h)

def socket (i : Fin 2) (past : List PadEvent) : Option Joypad :=
  (held i past).map (Joypad.afterReads (strobed i past) (reads i past))

/-- Every event does to a socket what the history says. -/
theorem socket_cons (i : Fin 2) (e : PadEvent) (past : List PadEvent) :
    socket i (e :: past) = e.onSocket i (socket i past) := by
  cases e with
  | read address =>
    by_cases h : address = padAddress i
    · simp only [socket, held, strobed, reads, onSocket, h, if_true, Option.map_map,
        Function.comp_def, Joypad.poll_afterReads]
    · simp only [socket, held, strobed, reads, onSocket, h, if_false]
  | write address byte =>
    by_cases h : address = 0x4016
    · simp only [socket, held, strobed, reads, onSocket, h, if_true, Option.map_map,
        Function.comp_def, Joypad.setStrobe_afterReads]
    · simp only [socket, held, strobed, reads, onSocket, h, if_false]
  | plug j buttons =>
    by_cases h : j = i
    · simp only [socket, held, strobed, reads, onSocket, h, if_true]
      rfl
    · simp only [socket, held, strobed, reads, onSocket, h, if_false]
  | unplug j =>
    by_cases h : j = i
    · simp only [socket, held, onSocket, h, if_true, Option.map_none]
    · simp only [socket, held, strobed, reads, onSocket, h, if_false]
  | change j c =>
    by_cases h : j = i
    · simp only [socket, held, strobed, reads, onSocket, h, if_true, Option.map_map,
        Function.comp_def, Joypad.apply_afterReads]
    · simp only [socket, held, strobed, reads, onSocket, h, if_false]

end PadEvent

/-! ### Both sockets -/

namespace Bus

variable {κ : Type} [Cartridge κ]

def changeButtons (b : Bus κ) (i : Fin 2) (change : ButtonChange) : Bus κ :=
  match b.pad? i with
  | some pad => b.connect i (change.apply pad)
  | none => b

def happen (b : Bus κ) : PadEvent → Bus κ
  | .read address => (b.read address).2
  | .write address byte => b.write address byte
  | .plug i buttons => b.connect i { buttons }
  | .unplug i => b.disconnect i
  | .change i c => b.changeButtons i c

/-- The bus after a history, its first event first. -/
def happenAll (b : Bus κ) (history : List PadEvent) : Bus κ := history.foldl happen b

def withoutPads (b : Bus κ) : Bus κ := { b with pads := .replicate _ none }

omit [Cartridge κ] in
theorem get_set_pads (pads : Vector (Option Joypad) 2) (i j : Fin 2) (pad : Option Joypad) :
    (pads.set j pad j.isLt).get i = if j = i then pad else pads.get i := by
  show (pads.set j.val pad j.isLt)[i.val] = if j = i then pad else pads[i.val]
  rw [Vector.getElem_set]
  simp only [Fin.val_inj]

theorem read_socket (b : Bus κ) (address : UInt16) (i : Fin 2) :
    (b.read address).2.pads.get i =
      if address = padAddress i then (b.pads.get i).map (·.poll.2) else b.pads.get i := by
  by_cases h : address = padAddress i
  · rw [if_pos h, h, read, Region.ofAddress_padAddress]
    exact (get_set_pads ..).trans (if_pos rfl)
  · rw [if_neg h]
    unfold read
    split
    · rfl
    · rfl
    · rename_i j hj
      have hne : j ≠ i := fun hji => h (hji ▸ Region.eq_padAddress hj)
      exact (get_set_pads ..).trans (if_neg hne)
    · rfl
    · rfl

theorem write_socket (b : Bus κ) (address : UInt16) (byte : UInt8) (i : Fin 2) :
    (b.write address byte).pads.get i =
      if address = 0x4016 then (b.pads.get i).map (·.setStrobe (bit byte 0)) else b.pads.get i := by
  by_cases h : address = 0x4016
  · rw [if_pos h, h]
    exact Vector.getElem_map _ i.isLt
  · have hpads : (b.write address byte).pads = b.pads := by
      unfold write
      split
      · rfl
      · rfl
      · simp only [transfer]
      · rename_i hpad
        exact absurd (Region.eq_padAddress hpad) h
      · rfl
      · rfl
    rw [if_neg h, hpads]

omit [Cartridge κ] in
theorem connect_socket (b : Bus κ) (i j : Fin 2) (pad : Joypad) :
    (b.connect j pad).pads.get i = if j = i then some pad else b.pads.get i := by
  rw [connect, dif_pos j.isLt]
  exact get_set_pads ..

omit [Cartridge κ] in
theorem disconnect_socket (b : Bus κ) (i j : Fin 2) :
    (b.disconnect j).pads.get i = if j = i then none else b.pads.get i := by
  rw [disconnect, dif_pos j.isLt]
  exact get_set_pads ..

omit [Cartridge κ] in
theorem pad?_socket (b : Bus κ) (i : Fin 2) : b.pad? i = b.pads.get i := by
  rw [pad?, Vector.getElem?_eq_getElem i.isLt]
  rfl

omit [Cartridge κ] in
theorem changeButtons_socket (b : Bus κ) (i j : Fin 2) (change : ButtonChange) :
    (b.changeButtons j change).pads.get i =
      if j = i then (b.pads.get i).map change.apply else b.pads.get i := by
  unfold changeButtons
  split
  · rename_i pad hpad
    rw [pad?_socket] at hpad
    rw [connect_socket]
    by_cases h : j = i
    · rw [if_pos h, if_pos h, ← h, hpad]
      rfl
    · rw [if_neg h, if_neg h]
  · rename_i hpad
    rw [pad?_socket] at hpad
    by_cases h : j = i
    · rw [if_pos h, ← h, hpad]
      rfl
    · rw [if_neg h]

/-- An event does the same to a socket whatever else is on the bus. -/
theorem happen_socket (b : Bus κ) (e : PadEvent) (i : Fin 2) :
    (b.happen e).pads.get i = e.onSocket i (b.pads.get i) := by
  cases e with
  | read address => exact read_socket b address i
  | write address byte => exact write_socket b address byte i
  | plug j buttons => exact connect_socket b i j _
  | unplug j => exact disconnect_socket b i j
  | change j c => exact changeButtons_socket b i j c

/-- A socket after a history is as its events have left it, one after another. -/
theorem happenAll_socket (b : Bus κ) (history : List PadEvent) (i : Fin 2) :
    (b.happenAll history).pads.get i =
      history.foldl (fun pad e => e.onSocket i pad) (b.pads.get i) := by
  induction history generalizing b with
  | nil => rfl
  | cons e history ih => exact (ih _).trans (by rw [happen_socket]; rfl)

omit [Cartridge κ] in
theorem withoutPads_socket (b : Bus κ) (i : Fin 2) : b.withoutPads.pads.get i = none :=
  Vector.getElem_replicate i.isLt

theorem happenAll_withoutPads (b : Bus κ) (history : List PadEvent) (i : Fin 2) :
    (b.withoutPads.happenAll history).pads.get i = PadEvent.socket i history.reverse := by
  rw [happenAll_socket, withoutPads_socket, List.foldl_eq_foldr_reverse]
  generalize history.reverse = past
  induction past with
  | nil => rfl
  | cons e past ih => rw [List.foldr_cons, ih, PadEvent.socket_cons]

theorem read_padAddress (b : Bus κ) (i : Fin 2) :
    (b.read (padAddress i)).1 = match b.pads.get i with
      | some pad => atBit pad.line 0
      | none => 0 := by
  rw [read, Region.ofAddress_padAddress]
  rfl

theorem foldl_onSocket_filter (i : Fin 2) (history : List PadEvent) (pad : Option Joypad) :
    (history.filter (PadEvent.concerns i)).foldl (fun pad e => e.onSocket i pad) pad =
      history.foldl (fun pad e => e.onSocket i pad) pad := by
  induction history generalizing pad with
  | nil => rfl
  | cons e history ih =>
    rw [List.filter_cons]
    split
    · exact ih _
    · rename_i h
      rw [ih, List.foldl_cons, PadEvent.onSocket_of_not_concerns (Bool.eq_false_iff.mpr h)]

/-- What the socket sends follows from the history. -/
structure PadFollows (b : Bus κ) (i : Fin 2) (history : List PadEvent) : Prop where
  /-- the next read gives what the history says -/
  read : ((b.happenAll history).read (padAddress i)).1 = PadEvent.next i history.reverse
  /-- the pad counts no further than to its last button -/
  shifted : ∀ pad, (b.happenAll history).pads.get i = some pad → pad.shifted ≤ 8
  /-- the events that have nothing to do with the socket might as well not have happened -/
  apart : ((b.happenAll (history.filter (PadEvent.concerns i))).read (padAddress i)).1 =
    ((b.happenAll history).read (padAddress i)).1

/-- **The pads send what the history says.** -/
theorem pads_follow (b : Bus κ) (i : Fin 2) (history : List PadEvent) :
    b.withoutPads.PadFollows i history where
  read := by
    rw [read_padAddress, happenAll_withoutPads, PadEvent.socket, PadEvent.next]
    cases PadEvent.held i history.reverse with
    | none => rfl
    | some buttons => exact Joypad.line_afterReads ..
  shifted pad hpad := by
    rw [happenAll_withoutPads, PadEvent.socket, Option.map_eq_some_iff] at hpad
    obtain ⟨buttons, -, rfl⟩ := hpad
    exact Joypad.shifted_afterReads_le ..
  apart := by
    rw [read_padAddress, read_padAddress, happenAll_socket, happenAll_socket,
      foldl_onSocket_filter]

/-- Ten bits of a pad on which A, start and right are held. -/
example :
    (List.range 10).map (fun n => PadEvent.next 0 (.replicate n (.read 0x4016) ++
      [.write 0x4016 0, .write 0x4016 1, .plug 0 0x89])) = [1, 0, 0, 1, 0, 0, 0, 1, 1, 1] := by
  decide

end Bus

end Famicom
