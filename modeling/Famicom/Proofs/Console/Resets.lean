import Famicom.Proofs.Cartridge.History
import Famicom.Proofs.Console.Layouts
import Famicom.Proofs.Console.Replay

/-!
# A reset forgets the past

Two consoles are built from the same file with the same settings, and then anything may be done to
each of them, in the middle of a frame too.  If they end with the same memory, then nothing else of
their pasts is left after a reset: both go on from the same processor, bus and picture
(`ofImage_resets`).  Memory is what the reset line does not reach: memory of the processor and of
the picture unit, memory on the board, the pads and the Game Genie (`Bus.SameMemory`).

What a reset keeps beside memory is the same in both from the beginning: the settings, among them
whether undocumented opcodes run, and the chips of the board that cannot be written
(`Console.MadeOf`).
-/

namespace Famicom

open Picture Processor

/-! ### Boards -/

theorem PatternChip.eq_of_bytes {chip chip' : PatternChip} (hbanks : chip'.banks = chip.banks)
    (hwritable : chip'.writable = chip.writable)
    (hbytes : chip'.bytes.toArray = chip.bytes.toArray) : chip' = chip := by
  obtain ⟨banks, hpos, bytes, writable⟩ := chip
  obtain ⟨banks', hpos', bytes', writable'⟩ := chip'
  dsimp only at hbanks hwritable hbytes
  subst hbanks hwritable
  rw [Vector.toArray_inj.mp hbytes]

namespace Board

open CartridgeUse

def workRam : Board → Option (Vector UInt8 0x2000)
  | nrom c => some c.ram
  | uxrom _ => none

def patternRam (board : Board) : Option (Array UInt8) :=
  if board.pattern.writable then some board.pattern.bytes.toArray else none

theorem apply_layout (board : Board) (u : CartridgeUse) :
    Cartridge.layout (u.apply board) = Cartridge.layout board := by
  cases board with
  | nrom c =>
    cases u with
    | write address byte =>
      show (c.write address byte).layout = c.layout
      unfold Nrom.write
      split <;> rfl
    | _ => rfl
  | uxrom c =>
    cases u with
    | write address byte =>
      show (c.write address byte).layout = c.layout
      unfold Uxrom.write
      split <;> rfl
    | _ => rfl

/-- What no use of a board changes. -/
theorem run_keeps (board : Board) (past : List CartridgeUse) :
    Cartridge.layout (run board past) = Cartridge.layout board ∧
      (run board past).pattern.banks = board.pattern.banks ∧
      (run board past).pattern.writable = board.pattern.writable := by
  induction past using List.reverseRecOn with
  | nil => exact ⟨rfl, rfl, rfl⟩
  | append_singleton past u ih =>
    obtain ⟨hlayout, hbanks, hwritable⟩ := ih
    obtain ⟨hbanks', hwritable'⟩ := (run board past).pattern.after_keeps u
    rw [run_concat, apply_layout, apply_pattern]
    exact ⟨hlayout, hbanks'.trans hbanks, hwritable'.trans hwritable⟩

variable {board board' : Board} {past past' : List CartridgeUse}

/-- Of a pattern chip only memory can have changed. -/
theorem run_pattern_congr (h : (run board past').patternRam = (run board past).patternRam) :
    (run board past').pattern = (run board past).pattern := by
  cases hw : board.pattern.writable with
  | false => rw [run_pattern_of_not_writable hw, run_pattern_of_not_writable hw]
  | true =>
    obtain ⟨-, hbanks, hwritable⟩ := run_keeps board past
    obtain ⟨-, hbanks', hwritable'⟩ := run_keeps board past'
    rw [patternRam, patternRam, hwritable, hwritable', if_pos hw, if_pos hw,
      Option.some.injEq] at h
    exact PatternChip.eq_of_bytes (hbanks'.trans hbanks.symm) (hwritable'.trans hwritable.symm) h

/-- A board that was reset is its chips, its layout and its work memory. -/
theorem reset_congr (hprogram : board'.program = board.program)
    (hpattern : board'.pattern = board.pattern)
    (hlayout : Cartridge.layout board' = Cartridge.layout board)
    (hwork : board'.workRam = board.workRam) : Cartridge.reset board' = Cartridge.reset board := by
  cases board with
  | nrom c =>
    cases board' with
    | nrom c' =>
      obtain ⟨program, pattern, ram, layout⟩ := c
      obtain ⟨program', pattern', ram', layout'⟩ := c'
      cases hprogram
      cases hpattern
      cases hlayout
      cases hwork
      rfl
    | uxrom c' => cases hwork
  | uxrom c =>
    cases board' with
    | nrom c' => cases hwork
    | uxrom c' =>
      obtain ⟨program, pattern, bank, layout⟩ := c
      obtain ⟨program', pattern', bank', layout'⟩ := c'
      cases hprogram
      cases hpattern
      cases hlayout
      rfl

/-- After a reset, what has been done to a board shows in its memory alone. -/
theorem reset_run_congr (hwork : (run board past').workRam = (run board past).workRam)
    (hpattern : (run board past').patternRam = (run board past).patternRam) :
    Cartridge.reset (run board past') = Cartridge.reset (run board past) :=
  reset_congr ((run_program board past').trans (run_program board past).symm)
    (run_pattern_congr hpattern) ((run_keeps board past').1.trans (run_keeps board past).1.symm)
    hwork

end Board

/-! ### Where a cartridge comes from -/

namespace Bus

variable {κ : Type} [Cartridge κ] {cart : κ} {b b' : Bus κ}

/-- The cartridge is what has become of `cart` in use. -/
def Descends (cart : κ) (b : Bus κ) : Prop := ∃ past, b.cartridge = CartridgeUse.run cart past

theorem Descends.use (h : b.Descends cart) {u : CartridgeUse}
    (hu : b'.cartridge = u.apply b.cartridge) : b'.Descends cart := by
  obtain ⟨past, hpast⟩ := h
  exact ⟨past ++ [u], by rw [hu, hpast, run_concat]⟩

theorem Descends.congr (h : b.Descends cart) (hb : b'.cartridge = b.cartridge) :
    b'.Descends cart := by
  obtain ⟨past, hpast⟩ := h
  exact ⟨past, hb.trans hpast⟩

theorem read_cartridge (b : Bus κ) (address : UInt16) :
    (b.read address).2.cartridge = b.cartridge := by
  unfold read
  split <;> rfl

/-- A write reaches the cartridge in two ways, or not at all. -/
theorem write_cartridge (b : Bus κ) (address : UInt16) (byte : UInt8) :
    (b.write address byte).cartridge = b.cartridge ∨
      ∃ u : CartridgeUse, (b.write address byte).cartridge = u.apply b.cartridge := by
  unfold write
  split
  · exact .inl rfl
  · rename_i name _
    unfold Video.writeThrough
    split
    · unfold Memory.writeCartridge
      dsimp only
      split
      · exact .inr ⟨.writePattern _ _, rfl⟩
      · exact .inl rfl
    · exact .inl rfl
  · exact .inl (by rw [transfer])
  · exact .inl rfl
  · exact .inr ⟨.write _ _, rfl⟩
  · exact .inl rfl

theorem lasting_descends (cart : κ) : Lasting (Descends cart) where
  read address h := h.congr (read_cartridge _ address)
  write {b} address byte h := by
    rcases b.write_cartridge address byte with hb | ⟨u, hu⟩
    · exact h.congr hb
    · exact h.use hu
  setRegs _ h := h
  takeStall h := h

theorem Descends.reset (h : b.Descends cart) : b.reset.Descends cart := h.use (u := .reset) rfl

end Bus

namespace Machine

variable {κ : Type} [Cartridge κ]

/-- No step changes which opcodes may run. -/
theorem step_undocumented (m : Machine κ) :
    m.step.2.cpu.undocumented = m.cpu.undocumented := by
  cases hh : m.cpu.halted with
  | true => rw [step_of_halted hh]
  | false =>
    by_cases hw : m.step.1 = .waits
    · rw [cpu_of_waits (Prod.ext hw rfl)]
    · obtain ⟨j, hj⟩ := step_of_ne_waits hh hw
      rw [hj]
      rcases m.program.exec m.cpu.toCore m.takeNmi.bus with ⟨_ | k, c, b⟩
      · show m.takeNmi.cpu.undocumented = _
        rw [takeNmi_cpu]
      · show m.takeNmi.cpu.undocumented = _
        rw [takeNmi_cpu]

end Machine

/-! ### Consoles built alike -/

namespace Console

variable {κ : Type} [Cartridge κ] {cart : κ} {settings : Settings} {c d : Console κ}

/-- What stays of how a console was built, in the console and in what it has put aside. -/
structure MadeOf (cart : κ) (settings : Settings) (c : Console κ) : Prop where
  cartridge : c.machine.bus.Descends cart
  undocumented : c.machine.cpu.undocumented = settings.undocumentedOpcodes
  saved (s : Snapshot κ) (h : c.snapshot = some s) :
    (∃ past, s.cartridge = CartridgeUse.run cart past) ∧
      s.cpu.undocumented = settings.undocumentedOpcodes
  settings : c.settings = settings

namespace MadeOf

theorem withBus (h : MadeOf cart settings c) (f : Bus κ → Bus κ)
    (hf : (f c.machine.bus).Descends cart) : MadeOf cart settings (c.onBus f) :=
  ⟨hf, h.undocumented, h.saved, h.settings⟩

theorem reset (h : MadeOf cart settings c) : MadeOf cart settings c.reset :=
  ⟨h.cartridge.reset, h.undocumented, h.saved, h.settings⟩

theorem frame {σ : Type} [PixelSink σ] (h : MadeOf cart settings c) (sink : σ) :
    MadeOf cart settings (c.runFrame sink).2.1 := by
  obtain ⟨hsettings, hsnapshot⟩ := c.runFrame_settings sink
  have hlasting := Bus.lasting_descends cart
  refine ⟨?_, ?_, by rw [hsnapshot]; exact h.saved, hsettings.trans h.settings⟩
  · exact runFrame_keeps_bus (fun _ => Machine.step_lasting hlasting)
      (fun _ r => hlasting.setRegs r) h.cartridge sink
  · exact runFrame_keeps (P := fun m => m.cpu.undocumented = settings.undocumentedOpcodes)
      (fun m hm => m.step_undocumented.trans hm) (fun _ _ _ hm => hm)
      (fun _ _ _ hcpu hm => hcpu.trans hm) h.undocumented sink

theorem perform (h : MadeOf cart settings c) (op : Operation) :
    MadeOf cart settings (c.perform op) := by
  cases op with
  | frame sink => exact h.frame sink
  | reset => exact h.reset
  | save =>
    refine ⟨h.cartridge, h.undocumented, fun s hs => ?_, h.settings⟩
    cases hs
    exact ⟨h.cartridge, h.undocumented⟩
  | restore =>
    obtain heq | ⟨s, journal, hs, heq⟩ := c.perform_restore_eq
    · rwa [heq]
    · obtain ⟨hcartridge, hundocumented⟩ := h.saved s hs
      rw [heq]
      exact ⟨hcartridge, hundocumented, fun s hs => (by cases hs), h.settings⟩
  | arm code =>
    obtain ⟨genie, journal, heq⟩ := c.perform_arm_eq code
    rw [heq]
    exact ⟨h.cartridge, h.undocumented, h.saved, h.settings⟩
  | disarm =>
    obtain ⟨genie, journal, heq⟩ := c.perform_disarm_eq
    rw [heq]
    exact ⟨h.cartridge, h.undocumented, h.saved, h.settings⟩
  | connect socket pad =>
    obtain ⟨pads, heq⟩ := c.perform_connect_eq socket pad
    rw [heq]
    exact h.withBus ({ · with pads }) (h.cartridge.congr rfl)
  | disconnect socket =>
    obtain ⟨pads, heq⟩ := c.perform_disconnect_eq socket
    rw [heq]
    exact h.withBus ({ · with pads }) (h.cartridge.congr rfl)

/-- Whatever is done to a console, it stays what it was built as. -/
theorem treat (h : MadeOf cart settings c) (t : Treatment) : MadeOf cart settings (c.treat t) := by
  have hlasting := Bus.lasting_descends cart
  cases t with
  | read address =>
    exact h.withBus (fun b => (b.read address).2) (hlasting.read address h.cartridge)
  | write address byte =>
    exact h.withBus (·.write address byte) (hlasting.write address byte h.cartridge)
  | transfer page => exact h.withBus (·.transfer page) (h.cartridge.congr (by rw [Bus.transfer]))
  | ticks sink n => exact ⟨h.cartridge, h.undocumented, h.saved, h.settings⟩
  | resetBus => exact h.withBus (·.reset) h.cartridge.reset
  | step =>
    exact ⟨Machine.step_lasting hlasting h.cartridge,
      c.machine.step_undocumented.trans h.undocumented, h.saved, h.settings⟩
  | ask op => exact h.perform op

theorem treatAll (h : MadeOf cart settings c) (l : List Treatment) :
    MadeOf cart settings (c.treatAll l) := by
  induction l generalizing c with
  | nil => exact h
  | cons t l ih => exact ih (h.treat t)

end MadeOf

theorem madeOf_of_build {journal : Journal} (h : build cart settings journal = .ok c) :
    MadeOf cart settings c := by
  have hbase (m : Machine κ) (hm : m.bus.cartridge = cart)
      (hcpu : m.cpu.undocumented = settings.undocumentedOpcodes) :
      MadeOf cart settings (reset { machine := m, settings }) := by
    refine MadeOf.reset ⟨⟨[], hm⟩, hcpu, fun s hs => ?_, rfl⟩
    cases hs
  unfold build at h
  cases hg : settings.gameGenie with
  | none =>
    rw [hg] at h
    cases h
    exact hbase _ rfl rfl
  | some code =>
    simp only [hg, Bind.bind, Except.bind, Machine.arm] at h
    split at h <;> rename_i harm <;> cases h
    split at harm <;> cases harm
    exact hbase _ rfl rfl

end Console

/-! ### After a reset -/

/-- All that the reset line does not reach is the same: memory of the processor and of the picture
unit, memory on the board, the pads and the Game Genie. -/
structure Bus.SameMemory (b b' : Bus Board) : Prop where
  ram : b'.ram = b.ram
  nametables : b'.video.memory.nametables = b.video.memory.nametables
  palette : b'.video.memory.palette = b.video.memory.palette
  sprites : b'.video.memory.sprites = b.video.memory.sprites
  workRam : b'.cartridge.workRam = b.cartridge.workRam
  patternRam : b'.cartridge.patternRam = b.cartridge.patternRam
  pads : b'.pads = b.pads
  gameGenie : b'.gameGenie = b.gameGenie

theorem Bus.SameMemory.reset {b b' : Bus Board} {board : Board} (h : b.SameMemory b')
    (hb : b.Descends board) (hb' : b'.Descends board) : b'.reset = b.reset := by
  obtain ⟨past, hpast⟩ := hb
  obtain ⟨past', hpast'⟩ := hb'
  have hcart : Cartridge.reset b'.cartridge = Cartridge.reset b.cartridge := by
    rw [hpast, hpast']
    exact Board.reset_run_congr (hpast ▸ hpast' ▸ h.workRam) (hpast ▸ hpast' ▸ h.patternRam)
  obtain ⟨hram, hnametables, hpalette, hsprites, -, -, hpads, hgenie⟩ := h
  obtain ⟨cart, ⟨⟨nametables, palette, sprites, layout⟩, regs⟩, ram, pads, genie, stall⟩ := b
  obtain ⟨cart', ⟨⟨nametables', palette', sprites', layout'⟩, regs'⟩, ram', pads', genie',
    stall'⟩ := b'
  dsimp only at *
  subst hram hnametables hpalette hsprites hpads hgenie
  unfold Bus.reset
  dsimp only
  rw [hcart]
  rfl

namespace Console

variable {c d : Console Board}

/-- A reset makes `d` what it makes `c`, and from there on they go alike. -/
structure ResetsAs (c d : Console Board) : Prop where
  cpu : d.reset.machine.cpu = c.reset.machine.cpu
  bus : d.reset.machine.bus = c.reset.machine.bus
  raster : d.reset.raster = c.reset.raster
  halt : d.reset.halt = c.reset.halt
  settings : d.reset.settings = c.reset.settings
  results {σ : Type} [PixelSink σ] (k : Nat) (sink : σ) :
    (d.reset.runFrames k sink).1 = (c.reset.runFrames k sink).1
  sink {σ : Type} [PixelSink σ] (k : Nat) (sink : σ) :
    (d.reset.runFrames k sink).2.2 = (c.reset.runFrames k sink).2.2
  /-- after so many frames everything is the same but the journal and what is put aside -/
  console {σ : Type} [PixelSink σ] (k : Nat) (sink : σ) :
    ∃ journal snapshot,
      (d.reset.runFrames k sink).2.1 = (c.reset.runFrames k sink).2.1.withRecords journal snapshot

theorem ResetsAs.of_withRecords {journal : Journal} {snapshot : Option (Snapshot Board)}
    (h : d.reset = c.reset.withRecords journal snapshot) : ResetsAs c d where
  cpu := by rw [h]; rfl
  bus := by rw [h]; rfl
  raster := rfl
  halt := rfl
  settings := by rw [h]; rfl
  results k sink := by
    obtain ⟨journal', hframes⟩ := c.reset.runFrames_withRecords k journal snapshot sink
    rw [h, hframes]
  sink k sink := by
    obtain ⟨journal', hframes⟩ := c.reset.runFrames_withRecords k journal snapshot sink
    rw [h, hframes]
  console k sink := by
    obtain ⟨journal', hframes⟩ := c.reset.runFrames_withRecords k journal snapshot sink
    rw [h, hframes]
    exact ⟨journal', snapshot, rfl⟩

theorem reset_eq_mk (c : Console Board) :
    ∃ journal, c.reset =
      { machine :=
          { cpu := c.machine.cpu.afterReset (wordOf
              (c.machine.bus.reset.peek (Cpu.resetVector + 1))
              (c.machine.bus.reset.peek Cpu.resetVector))
            bus := c.machine.bus.reset
            journal }
        settings := c.settings
        snapshot := c.snapshot } := ⟨_, rfl⟩

/-- Two consoles that were built alike and have the same memory differ after a reset in their
records alone. -/
theorem MadeOf.reset_eq {board : Board} {settings : Settings} (hc : MadeOf board settings c)
    (hd : MadeOf board settings d) (h : c.machine.bus.SameMemory d.machine.bus) :
    ∃ journal, d.reset = c.reset.withRecords journal d.snapshot := by
  have hbus := h.reset hc.cartridge hd.cartridge
  have hcpu (pc : UInt16) : d.machine.cpu.afterReset pc = c.machine.cpu.afterReset pc := by
    rw [Cpu.afterReset, Cpu.afterReset, hc.undocumented, hd.undocumented]
  have hsettings : d.settings = c.settings := hd.settings.trans hc.settings.symm
  obtain ⟨journal, hreset⟩ := c.reset_eq_mk
  obtain ⟨journal', hreset'⟩ := d.reset_eq_mk
  refine ⟨journal', ?_⟩
  rw [hreset', hreset, hbus, hcpu, hsettings]
  rfl

theorem madeOf_of_ofImage {file : Array UInt8} {image : Image} {settings : Settings}
    {journal : Journal} (hparse : Image.parse file = .ok image)
    (h : ofImage file settings journal = .ok c) : MadeOf image.board settings c := by
  unfold ofImage at h
  rw [hparse] at h
  exact madeOf_of_build h

/-- **A reset forgets the past.**  Whatever was done to two consoles that were built from the same
file with the same settings, if they have the same memory in the end, then a reset makes them the
same, and they go alike ever after. -/
theorem ofImage_resets {file : Array UInt8} {settings : Settings} {journal journal' : Journal}
    (hc : ofImage file settings journal = .ok c) (hd : ofImage file settings journal' = .ok d)
    (l l' : List Treatment)
    (h : (c.treatAll l).machine.bus.SameMemory (d.treatAll l').machine.bus) :
    (c.treatAll l).ResetsAs (d.treatAll l') := by
  obtain ⟨image, hparse⟩ : ∃ image, Image.parse file = .ok image := by
    unfold ofImage at hc
    cases hparse : Image.parse file with
    | error e =>
      rw [hparse] at hc
      cases hc
    | ok image => exact ⟨image, rfl⟩
  have hmade := (madeOf_of_ofImage hparse hc).treatAll l
  have hmade' := (madeOf_of_ofImage hparse hd).treatAll l'
  obtain ⟨journal, hreset⟩ := hmade.reset_eq hmade' h
  exact .of_withRecords hreset

/-- One console is new; the other one was told to switch its program bank and to interrupt at every
vblank. -/
theorem switching_resets :
    let l : List Treatment := [.write 0x8000 1, .write 0x2000 0x80]
    ∃ c, ofImage (switchingHeader ++ switchingData) {} = .ok c ∧
      c.machine.bus.video.regs.control.nmiEnabled = false ∧
      (c.treatAll l).machine.bus.video.regs.control.nmiEnabled = true ∧
      c.machine.bus.SameMemory (c.treatAll l).machine.bus ∧ c.ResetsAs (c.treatAll l) := by
  intro l
  have hsize : switchingData.size = 32768 := by simp [switchingData]
  generalize switchingData = data at *
  obtain ⟨board, hparse, -⟩ := (ImageFile.switchingHeader_accepted hsize).parse
  obtain ⟨c, hc, hquiet⟩ : ∃ c, ofImage (switchingHeader ++ data) {} = .ok c ∧
      c.machine.bus.video.regs.control.nmiEnabled = false := by
    unfold ofImage
    rw [hparse]
    exact ⟨_, rfl, rfl⟩
  have hbus : (c.treatAll l).machine.bus =
      (c.machine.bus.writeCartridge 0x8000 1).write 0x2000 0x80 := rfl
  rw [Bus.writeCartridge_eq] at hbus
  have hcart : (c.treatAll l).machine.bus.cartridge =
      Cartridge.write c.machine.bus.cartridge 0x8000 1 := rfl
  have hchips : (c.treatAll l).machine.bus.cartridge.workRam = c.machine.bus.cartridge.workRam ∧
      (c.treatAll l).machine.bus.cartridge.patternRam = c.machine.bus.cartridge.patternRam := by
    rw [hcart]
    cases c.machine.bus.cartridge <;> exact ⟨rfl, rfl⟩
  have hsame : c.machine.bus.SameMemory (c.treatAll l).machine.bus := by
    refine ⟨?_, ?_, ?_, ?_, hchips.1, hchips.2, ?_, ?_⟩ <;> rw [hbus] <;> rfl
  exact ⟨c, hc, hquiet, by rw [hbus]; rfl, hsame, ofImage_resets hc hc [] l hsame⟩

end Console

end Famicom
