import Famicom.Proofs.Machine.Pairs
import Famicom.Proofs.Machine.Returns

/-!
# The stack gives back what it was given

Bytes and words go on the stack and come off again (`StackMove`).  Where the moves are nested
properly, so that whatever comes off is what went on last (`Nesting`), every item comes back as it
was, the stack pointer ends where it began, and of the machine nothing has changed but cells of the
stack's page as far down as the items reached (`TakesBack`).  That is so wherever the pointer stands
and wraps around, as long as no more than 256 bytes are on the stack at once (`stack_takesBack`).

What carries the proof is the list of the bytes that are on the stack (`Holds`): a byte that goes on
joins it at its end, as long as there is room, and the byte that comes off is the last one.
-/

namespace Famicom

open Processor

/-! ### Moves -/

/-- What goes on the stack at once. -/
inductive StackItem where
  | byte (b : UInt8)
  | word (w : UInt16)
  deriving DecidableEq, Repr

/-- The bytes of an item, in the order in which they go on the stack. -/
def StackItem.bytes : StackItem → List UInt8
  | byte b => [b]
  | word w => [highByte w, lowByte w]

def StackItem.size (item : StackItem) : Nat := item.bytes.length

/-- A move on the stack. -/
inductive StackMove where
  | push (item : StackItem)
  | popByte
  | popWord
  deriving DecidableEq, Repr

namespace StackMove

/-- The move that takes off an item of the same kind. -/
def popLike : StackItem → StackMove
  | .byte _ => popByte
  | .word _ => popWord

/-- A move as the processor makes it, with what it takes off the stack. -/
def program : StackMove → Program (List StackItem)
  | push (.byte b) => do
    Program.push b
    return []
  | push (.word w) => do
    Program.pushWord w
    return []
  | popByte => do
    let b ← Program.pop
    return [.byte b]
  | popWord => do
    let w ← Program.popWord
    return [.word w]

def programs : List StackMove → Program (List StackItem)
  | [] => return []
  | move :: moves => do
    let taken ← move.program
    let rest ← programs moves
    return taken ++ rest

end StackMove

/-- Moves that are nested properly: an item goes on the stack, others may come and go, and then it
is taken off. -/
inductive Nesting where
  | empty
  | around (item : StackItem) (inside rest : Nesting)

namespace Nesting

def moves : Nesting → List StackMove
  | empty => []
  | around item inside rest => .push item :: (inside.moves ++ .popLike item :: rest.moves)

/-- The items in the order in which they come off. -/
def taken : Nesting → List StackItem
  | empty => []
  | around item inside rest => inside.taken ++ item :: rest.taken

/-- The most bytes that are on the stack at once. -/
def depth : Nesting → Nat
  | empty => 0
  | around item inside rest => max (item.size + inside.depth) rest.depth

/-- All items go on the stack before the first comes off. -/
def tower : List StackItem → Nesting
  | [] => empty
  | item :: items => around item (tower items) empty

theorem moves_tower (items : List StackItem) :
    (tower items).moves = items.map .push ++ items.reverse.map .popLike := by
  induction items with
  | nil => rfl
  | cons item items ih =>
    rw [tower, moves, ih, moves, List.map_cons, List.reverse_cons, List.map_append,
      List.cons_append, List.append_assoc]
    rfl

theorem taken_tower (items : List StackItem) : (tower items).taken = items.reverse := by
  induction items with
  | nil => rfl
  | cons item items ih => rw [tower, taken, ih, taken, List.reverse_cons]

theorem depth_tower (items : List StackItem) :
    (tower items).depth = (items.flatMap StackItem.bytes).length := by
  induction items with
  | nil => rfl
  | cons item items ih =>
    rw [tower, depth, ih, depth, List.flatMap_cons, List.length_append, Nat.max_zero,
      StackItem.size]

end Nesting

/-! ### Bytes on the stack -/

/-- The number of the cell `i` places below a stack pointer, which stays on the stack's page. -/
def cellBelow (sp : UInt8) (i : Nat) : Nat := 0x100 + (sp.toNat + 256 - i) % 256

theorem stackCell_val (sp : UInt8) {i : Nat} (h : i < 256) :
    (stackCell (sp - .ofNat i)).val = cellBelow sp i := by
  have hsp : sp.toNat < 256 := sp.toNat_lt
  have hi : (UInt8.ofNat i).toNat = i := UInt8.toNat_ofNat_of_lt' h
  show 0x100 + (sp - .ofNat i).toNat = _
  rw [UInt8.toNat_sub, hi, cellBelow]
  omega

/-- Where there is room for both, no two bytes share a place. -/
theorem below_inj (sp : UInt8) {i j : Nat} (hi : i < 256) (hj : j < 256)
    (h : sp - .ofNat i = sp - .ofNat j) : i = j := by
  have hcell := congrArg (fun sp => (stackCell sp).val) h
  have hsp : sp.toNat < 256 := sp.toNat_lt
  simp only [stackCell_val sp hi, stackCell_val sp hj, cellBelow] at hcell
  omega

theorem sub_ofNat_succ (sp : UInt8) (n : Nat) : sp - .ofNat (n + 1) = sp - .ofNat n - 1 := by
  rw [UInt8.ofNat_add]
  grind

variable {κ : Type} [Cartridge κ]

/-- The machine with the stack pointer and the memory as given. -/
def Machine.withStack (m : Machine κ) (sp : UInt8) (ram : Vector UInt8 0x800) : Machine κ :=
  { m with
    cpu := { m.cpu with regs := { m.cpu.regs with sp } }
    bus := { m.bus with ram } }

/-- Since `m` the bytes have gone on the stack and are still there, the last of them on top.  Beside
the stack pointer nothing has changed but cells no more than `depth` places below where it was. -/
structure Machine.Holds (m m' : Machine κ) (held : List UInt8) (depth : Nat) : Prop where
  rest : m' = m.withStack (m.cpu.regs.sp - .ofNat held.length) m'.bus.ram
  bytes (i : Nat) (h : i < held.length) : m'.bus.onStack (m.cpu.regs.sp - .ofNat i) = held[i]
  frame (cell : Fin 0x800) : m'.bus.ram.get cell ≠ m.bus.ram.get cell →
    ∃ i < depth, cell.val = cellBelow m.cpu.regs.sp i

theorem Processor.Core.stackAddress_lt (c : Core) : c.stackAddress < 0x2000 := by
  have hsp : c.regs.sp.toNat < 256 := c.regs.sp.toNat_lt
  rw [UInt16.lt_iff_toNat_lt, show c.stackAddress.toNat = _ from toNat_wordOf 1 c.regs.sp]
  show 256 * 1 + _ < 8192
  omega

namespace Program

theorem push_run (byte : UInt8) (m : Machine κ) :
    (push byte).run m = .ok () (m.withStack (m.cpu.regs.sp - 1)
      (m.bus.ram.set (stackCell m.cpu.regs.sp) byte)) := by
  have hlow := m.cpu.stackAddress_lt
  have hwrite : (push byte).run m = ((writeByte m.cpu.stackAddress byte).bind fun _ =>
      modifyRegs fun r => { r with sp := r.sp - 1 }).run m := by
    rfl
  rw [hwrite, run_bind, writeByte, run,
    Exec.write_of_not_mustWait (Exec.mustWait_memory hlow m), Machine.write_memory hlow,
    Bus.write, Region.ofAddress_stackAddress]
  rfl

theorem pop_run (m : Machine κ) :
    pop.run m = .ok (m.bus.onStack (m.cpu.regs.sp + 1))
      (m.withStack (m.cpu.regs.sp + 1) m.bus.ram) := by
  let m' : Machine κ := m.withStack (m.cpu.regs.sp + 1) m.bus.ram
  have hlow := m'.cpu.stackAddress_lt
  have hread : pop.run m = (readByte m'.cpu.stackAddress).run m' := by
    rfl
  rw [hread, readByte, run, Exec.read_of_not_mustWait (Exec.mustWait_memory hlow m'), Bus.read,
    Region.ofAddress_stackAddress]
  rfl

end Program

namespace Machine

variable {m m' : Machine κ} {held : List UInt8} {depth : Nat}

omit [Cartridge κ] in
theorem Holds.refl (m : Machine κ) (depth : Nat) : m.Holds m [] depth where
  rest := by
    rw [withStack, List.length_nil, show UInt8.ofNat 0 = 0 from rfl, UInt8.sub_zero]
  bytes _ h := absurd h (Nat.not_lt_zero _)
  frame _ h := absurd rfl h

omit [Cartridge κ] in
theorem Holds.sp (h : m.Holds m' held depth) :
    m'.cpu.regs.sp = m.cpu.regs.sp - .ofNat held.length := by
  rw [h.rest]
  rfl

omit [Cartridge κ] in
theorem Holds.withStack (h : m.Holds m' held depth) (sp : UInt8) (ram : Vector UInt8 0x800) :
    m'.withStack sp ram = m.withStack sp ram := by
  have hrest := h.rest
  generalize m'.bus.ram = ram' at hrest
  rw [hrest]
  rfl

theorem Holds.push (h : m.Holds m' held depth) (byte : UInt8) (hroom : held.length < depth)
    (hdepth : depth ≤ 256) :
    ∃ m'', (Program.push byte).run m' = .ok () m'' ∧ m.Holds m'' (held ++ [byte]) depth := by
  refine ⟨_, Program.push_run byte m', ?_, ?_, ?_⟩
  · rw [List.length_append, List.length_singleton, sub_ofNat_succ, ← h.sp]
    exact h.withStack _ _
  · intro i hi
    rw [List.length_append, List.length_singleton] at hi
    show (m'.bus.ram.set (stackCell m'.cpu.regs.sp) byte)[stackCell _] = _
    rw [getElem_set_stackCell, h.sp]
    split
    · rename_i heq
      have hlast : held.length = i := below_inj _ (by omega) (by omega) heq
      subst hlast
      rw [List.getElem_concat_length rfl]
    · rename_i hne
      have hlt : i < held.length := by
        have : i ≠ held.length := fun heq => hne (by rw [heq])
        omega
      rw [List.getElem_append_left hlt]
      exact h.bytes i hlt
  · intro cell hcell
    by_cases hat : cell = stackCell m'.cpu.regs.sp
    · refine ⟨held.length, hroom, ?_⟩
      rw [hat, h.sp]
      exact stackCell_val _ (Nat.lt_of_lt_of_le hroom hdepth)
    · refine h.frame cell fun hsame => hcell ?_
      have hne : (stackCell m'.cpu.regs.sp).val ≠ cell.val := fun heq => hat (Fin.ext heq.symm)
      refine Eq.trans ?_ hsame
      exact Vector.getElem_set_ne (stackCell _).isLt cell.isLt hne

theorem Holds.pop {byte : UInt8} (h : m.Holds m' (held ++ [byte]) depth) :
    ∃ m'', Program.pop.run m' = .ok byte m'' ∧ m.Holds m'' held depth := by
  have hlength : (held ++ [byte]).length = held.length + 1 := List.length_append
  have hsp : m'.cpu.regs.sp + 1 = m.cpu.regs.sp - .ofNat held.length := by
    rw [h.sp, hlength, sub_ofNat_succ, UInt8.sub_add_cancel]
  have htop : m'.bus.onStack (m.cpu.regs.sp - .ofNat held.length) = byte := by
    rw [h.bytes held.length (by omega), List.getElem_concat_length rfl]
  refine ⟨m'.withStack (m.cpu.regs.sp - .ofNat held.length) m'.bus.ram, ?_, ?_, ?_, h.frame⟩
  · rw [Program.pop_run, hsp, htop]
  · exact h.withStack _ _
  · intro i hi
    refine (h.bytes i (by omega)).trans ?_
    rw [List.getElem_append_left hi]

/-! ### Items on the stack -/

theorem Holds.push_item (h : m.Holds m' held depth) (item : StackItem)
    (hroom : held.length + item.size ≤ depth) (hdepth : depth ≤ 256) :
    ∃ m'', (StackMove.push item).program.run m' = .ok [] m'' ∧
      m.Holds m'' (held ++ item.bytes) depth := by
  cases item with
  | byte b =>
    obtain ⟨m'', hpush, h''⟩ := h.push b hroom hdepth
    refine ⟨m'', ?_, h''⟩
    rw [StackMove.program, Program.bind_eq, Program.run_bind, hpush]
    rfl
  | word w =>
    have hroom : held.length + 2 ≤ depth := hroom
    obtain ⟨m₁, hhigh, h₁⟩ := h.push (highByte w) (by omega) hdepth
    obtain ⟨m₂, hlow, h₂⟩ := h₁.push (lowByte w) (by rw [List.length_append]; exact hroom) hdepth
    refine ⟨m₂, ?_, ?_⟩
    · rw [StackMove.program, Program.bind_eq, Program.run_bind, Program.pushWord, Program.bind_eq,
        Program.run_bind, hhigh]
      simp only [hlow]
      rfl
    · rwa [List.append_assoc] at h₂

theorem Holds.pop_item {item : StackItem} (h : m.Holds m' (held ++ item.bytes) depth) :
    ∃ m'', (StackMove.popLike item).program.run m' = .ok [item] m'' ∧ m.Holds m'' held depth := by
  cases item with
  | byte b =>
    obtain ⟨m'', hpop, h''⟩ := h.pop
    refine ⟨m'', ?_, h''⟩
    rw [StackMove.popLike, StackMove.program, Program.bind_eq, Program.run_bind, hpop]
    rfl
  | word w =>
    have h : m.Holds m' ((held ++ [highByte w]) ++ [lowByte w]) depth := by
      rwa [List.append_assoc]
    obtain ⟨m₁, hlow, h₁⟩ := h.pop
    obtain ⟨m₂, hhigh, h₂⟩ := h₁.pop
    refine ⟨m₂, ?_, h₂⟩
    rw [StackMove.popLike, StackMove.program, Program.bind_eq, Program.run_bind, Program.popWord,
      Program.bind_eq, Program.run_bind, hlow]
    simp only [Program.bind_eq, Program.run_bind, hhigh]
    simp only [Program.pure_eq, Program.run, wordOf_bytes]

end Machine

/-! ### Moves in a row -/

namespace StackMove

variable {m m' m'' : Machine κ} {move : StackMove} {moves moves' : List StackMove}
  {taken taken' : List StackItem}

theorem programs_cons (h : move.program.run m = .ok taken m')
    (h' : (programs moves).run m' = .ok taken' m'') :
    (programs (move :: moves)).run m = .ok (taken ++ taken') m'' := by
  rw [programs, Program.bind_eq, Program.run_bind, h]
  simp only [Program.bind_eq, Program.run_bind, h']
  rfl

theorem exists_of_programs_cons (h : (programs (move :: moves)).run m = .ok taken m'') :
    ∃ m' first rest, move.program.run m = .ok first m' ∧
      (programs moves).run m' = .ok rest m'' ∧ first ++ rest = taken := by
  rw [programs, Program.bind_eq, Program.run_bind] at h
  split at h
  · rename_i first m' hmove
    rw [Program.bind_eq, Program.run_bind] at h
    split at h
    · rename_i rest m₂ hmoves
      rw [Program.pure_eq, Program.run, EStateM.Result.ok.injEq] at h
      obtain ⟨htaken, rfl⟩ := h
      exact ⟨m', first, rest, hmove, hmoves, htaken⟩
    · cases h
  · cases h

theorem programs_append (h : (programs moves).run m = .ok taken m')
    (h' : (programs moves').run m' = .ok taken' m'') :
    (programs (moves ++ moves')).run m = .ok (taken ++ taken') m'' := by
  induction moves generalizing m taken with
  | nil =>
    rw [programs, Program.pure_eq, Program.run, EStateM.Result.ok.injEq] at h
    obtain ⟨rfl, rfl⟩ := h
    exact h'
  | cons move moves ih =>
    obtain ⟨m₁, first, rest, hmove, hmoves, rfl⟩ := exists_of_programs_cons h
    rw [List.cons_append, List.append_assoc]
    exact programs_cons hmove (ih hmoves)

end StackMove

namespace Machine

variable {m m' : Machine κ} {held : List UInt8} {depth : Nat}

/-- Whatever is on the stack already, items that come and go leave it there. -/
theorem Holds.nesting (n : Nesting) (h : m.Holds m' held depth)
    (hroom : held.length + n.depth ≤ depth) (hdepth : depth ≤ 256) :
    ∃ m'', (StackMove.programs n.moves).run m' = .ok n.taken m'' ∧ m.Holds m'' held depth := by
  induction n generalizing m' held with
  | empty => exact ⟨m', rfl, h⟩
  | around item inside rest ihInside ihRest =>
    have hdepths : held.length + (item.size + inside.depth) ≤ depth ∧
        held.length + rest.depth ≤ depth := by
      rw [Nesting.depth] at hroom
      omega
    have hlength : (held ++ item.bytes).length = held.length + item.size := List.length_append
    obtain ⟨m₁, hpush, h₁⟩ := h.push_item item (by omega) hdepth
    obtain ⟨m₂, hinside, h₂⟩ := ihInside h₁ (by omega)
    obtain ⟨m₃, hpop, h₃⟩ := h₂.pop_item
    obtain ⟨m₄, hrest, h₄⟩ := ihRest h₃ hdepths.2
    have hafter := StackMove.programs_cons hpop hrest
    have hwhole := StackMove.programs_cons hpush (StackMove.programs_append hinside hafter)
    exact ⟨m₄, hwhole, h₄⟩

end Machine

/-! ### Accesses -/

namespace Program

variable {α : Type}

/-- No access off the stack's page. -/
def stackOnly : Rules where
  read _ address := inStack address = true
  write address _ := inStack address = true

theorem Obeys.inStack_of_mem_accesses {p : Program α} {Q : α → Core → Prop} {m : Machine κ}
    (h : p.Obeys stackOnly Q m.cpu.toCore) : ∀ a ∈ p.accesses m, inStack a.address = true := by
  induction p generalizing m with
  | done a => simp [accesses]
  | jam => simp [accesses]
  | look next ih => exact ih _ h
  | change f next ih => exact ih h.2
  | note event next ih => exact ih h
  | read purpose address next ih =>
    obtain ⟨ha, hnext⟩ := h.resolve_left Bool.false_ne_true
    cases hw : Exec.mustWait m address with
    | true => simp [accesses, Exec.read_of_mustWait hw]
    | false =>
      simp only [accesses, Exec.read_of_not_mustWait hw, List.forall_mem_cons]
      exact ⟨ha, ih _ (hnext _)⟩
  | write address byte next ih =>
    obtain ⟨ha, hnext⟩ := h.resolve_left Bool.false_ne_true
    cases hw : Exec.mustWait m address with
    | true => simp [accesses, Exec.write_of_mustWait hw]
    | false =>
      simp only [accesses, Exec.write_of_not_mustWait hw, List.forall_mem_cons]
      exact ⟨ha, ih hnext⟩

/-- A program that keeps to the stack's page. -/
abbrev StackOnly (p : Program α) : Prop := ∀ c, p.Obeys stackOnly (fun _ _ => True) c

theorem StackOnly.bind {β : Type} {p : Program α} {f : α → Program β} (hp : p.StackOnly)
    (hf : ∀ a, (f a).StackOnly) : (p >>= f).StackOnly :=
  fun c => Obeys.bind (hp c) fun a c _ => hf a c

theorem StackOnly.pure (a : α) : (pure a : Program α).StackOnly := fun _ => trivial

theorem push_stackOnly (byte : UInt8) : (push byte).StackOnly := by
  intro c
  refine .inr ⟨?_, trivial, trivial⟩
  exact beq_iff_eq.mpr c.highByte_stackAddress

theorem pop_stackOnly : pop.StackOnly := by
  intro c
  refine ⟨trivial, .inr ⟨?_, fun _ => trivial⟩⟩
  exact beq_iff_eq.mpr (Core.highByte_stackAddress _)

end Program

open Program in
theorem StackMove.programs_stackOnly (moves : List StackMove) : (programs moves).StackOnly := by
  induction moves with
  | nil => exact .pure _
  | cons move moves ih =>
    refine StackOnly.bind ?_ fun _ => ih.bind fun _ => .pure _
    cases move with
    | push item =>
      cases item with
      | byte b => exact (push_stackOnly b).bind fun _ => .pure _
      | word w =>
        refine StackOnly.bind ?_ fun _ => .pure _
        exact (push_stackOnly _).bind fun _ => push_stackOnly _
    | popByte => exact pop_stackOnly.bind fun _ => .pure _
    | popWord =>
      refine StackOnly.bind ?_ fun _ => .pure _
      exact pop_stackOnly.bind fun _ => pop_stackOnly.bind fun _ => .pure _

/-! ### All items come back -/

namespace Machine

/-- The moves take the items off the stack, in this order.  Afterwards the machine is as before, its
stack pointer too, but for cells of the stack's page no more than `depth` places below the stack
pointer; and no access was made off that page. -/
structure TakesBack (m : Machine κ) (moves : List StackMove) (items : List StackItem)
    (depth : Nat) : Prop where
  run : ∃ ram, (StackMove.programs moves).run m = .ok items { m with bus := { m.bus with ram } } ∧
    ∀ cell : Fin 0x800, ram.get cell ≠ m.bus.ram.get cell →
      ∃ i < depth, cell.val = cellBelow m.cpu.regs.sp i
  accesses : ∀ a ∈ (StackMove.programs moves).accesses m, highByte a.address = 1

theorem takesBack_nesting (m : Machine κ) (n : Nesting) (h : n.depth ≤ 256) :
    m.TakesBack n.moves n.taken n.depth where
  run := by
    have hroom : ([] : List UInt8).length + n.depth ≤ n.depth := Nat.le_of_eq (Nat.zero_add _)
    obtain ⟨m', hrun, hm'⟩ := (Holds.refl m n.depth).nesting n hroom h
    refine ⟨m'.bus.ram, ?_, hm'.frame⟩
    have hrest := hm'.rest
    rw [List.length_nil, show UInt8.ofNat 0 = 0 from rfl, UInt8.sub_zero] at hrest
    rw [hrun]
    exact congrArg _ hrest
  accesses a ha :=
    beq_iff_eq.mp ((StackMove.programs_stackOnly n.moves _).inStack_of_mem_accesses a ha)

/-- **The stack gives back what it was given.**  Items that go on the stack one after another come
off in the opposite order, and so do items in any nesting, where no more than 256 bytes are on the
stack at once. -/
theorem stack_takesBack (m : Machine κ) :
    (∀ items : List StackItem, (items.flatMap StackItem.bytes).length ≤ 256 →
      m.TakesBack (items.map .push ++ items.reverse.map .popLike) items.reverse
        (items.flatMap StackItem.bytes).length) ∧
    ∀ n : Nesting, n.depth ≤ 256 → m.TakesBack n.moves n.taken n.depth := by
  refine ⟨fun items h => ?_, m.takesBack_nesting⟩
  rw [← Nesting.depth_tower] at h ⊢
  rw [← Nesting.moves_tower, ← Nesting.taken_tower]
  exact m.takesBack_nesting _ h

def wrapping : Machine Board where
  cpu := { regs := { sp := 1 } }
  bus := .plug Board.blank

theorem wrapping_takesBack :
    let items : List StackItem := [.byte 0x12, .word 0x3456, .byte 0x78]
    let n : Nesting := .around (.word 0xABCD) (.around (.byte 0x0F) .empty (.tower items)) .empty
    ((items.flatMap StackItem.bytes).length = 4 ∧ n.depth = 6) ∧
      wrapping.TakesBack (items.map .push ++ items.reverse.map .popLike) items.reverse 4 ∧
      wrapping.TakesBack n.moves n.taken 6 :=
  ⟨by decide, (stack_takesBack wrapping).1 _ (by decide),
    (stack_takesBack wrapping).2 _ (by decide)⟩

end Machine

end Famicom
