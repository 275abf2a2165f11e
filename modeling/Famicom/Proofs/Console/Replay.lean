import Famicom.Proofs.Console.Operations

/-!
# A machine taken up again goes on as before

A snapshot holds only a part of the console: the pads, the Game Genie, the settings, the report of a
halt and the cycles owed for transfers stay as they are when it is taken up.  Still, where nothing
but play has come between and no pad is plugged in, the console goes on from the snapshot exactly as
it would have gone on from where it was saved (`Reachable.replay`).

Two facts carry this.  What the snapshot leaves out is as it was when the console was saved
(`Played`): play leaves alone what is plugged in, and between frames no transfer is unaccounted for.
So the console is the saved one with other records, that is, another journal and another snapshot;
and records are never read by a frame (`runFrame_withRecords`).
-/

namespace Famicom

open Picture

/-! ### Records are not read -/

namespace Drawing

variable {κ σ : Type}

def withJournal (d : Drawing κ σ) (journal : Journal) : Drawing κ σ :=
  { d with machine := { d.machine with journal } }

variable [Cartridge κ] [PixelSink σ]

omit [Cartridge κ] [PixelSink σ] in
theorem onMachine_withJournal {α : Type} {f : Machine κ → α × Machine κ}
    (hf : ∀ m journal, ∃ journal',
      f { m with journal } = ((f m).1, { (f m).2 with journal := journal' }))
    (d : Drawing κ σ) (journal : Journal) :
    ∃ journal', (d.withJournal journal).onMachine f =
      ((d.onMachine f).1, (d.onMachine f).2.withJournal journal') := by
  obtain ⟨journal', h⟩ := hf d.machine journal
  refine ⟨journal', ?_⟩
  rw [onMachine_eq, onMachine_eq, show f (d.withJournal journal).machine = _ from h]
  rfl

theorem step_withJournal (d : Drawing κ σ) (journal : Journal) :
    ∃ journal', (d.withJournal journal).step = (d.step.1, d.step.2.withJournal journal') := by
  obtain ⟨journal₁, hstep⟩ := onMachine_withJournal Machine.step_journal d journal
  rw [step, step, hstep]
  rcases d.onMachine Machine.step with ⟨_ | _ | _, d'⟩
  · exact ⟨journal₁, rfl⟩
  · have hcaught : ∃ journal₂, (d'.withJournal journal₁).catchUp = d'.catchUp.withJournal journal₂ :=
      ⟨_, rfl⟩
    obtain ⟨journal₂, hcaught⟩ := hcaught
    dsimp only
    rw [hcaught]
    exact onMachine_withJournal Machine.step_journal _ journal₂
  · exact ⟨journal₁, rfl⟩

theorem render_withJournal (d : Drawing κ σ) (cycles : Nat) (journal : Journal) :
    ∃ journal', (d.withJournal journal).render cycles =
      ((d.render cycles).1, (d.render cycles).2.withJournal journal') :=
  walk_apart step_withJournal cycles 0 d journal

end Drawing

namespace Console

variable {κ σ : Type} {c : Console κ}

/-- The console with other records: another journal and another snapshot. -/
def withRecords (c : Console κ) (journal : Journal) (snapshot : Option (Snapshot κ)) : Console κ :=
  { c with machine := { c.machine with journal }, snapshot }

theorem conclude_withRecords (c : Console κ) (journal : Journal) (snapshot : Option (Snapshot κ))
    (outcome : Outcome) (d : Drawing κ σ) (journal' : Journal) :
    (c.withRecords journal snapshot).conclude (outcome, d.withJournal journal') =
      ((c.conclude (outcome, d)).1,
        (c.conclude (outcome, d)).2.1.withRecords journal' snapshot,
        (c.conclude (outcome, d)).2.2) := by
  cases outcome <;> rfl

variable [Cartridge κ] [PixelSink σ]

theorem resting_withRecords (c : Console κ) (journal : Journal) (snapshot : Option (Snapshot κ))
    (d : Drawing κ σ) (journal₁ : Journal) :
    ∃ journal', (c.withRecords journal snapshot).resting (d.withJournal journal₁) =
      ((c.resting d).1, (c.resting d).2.withJournal journal') :=
  Drawing.onMachine_withJournal
    (fun m journal => m.burst_journal c.settings.vblankCycles journal)
    (d.endRender c.settings.renderTicks) journal₁

theorem frame_withRecords (c : Console κ) (journal : Journal) (snapshot : Option (Snapshot κ))
    (sink : σ) :
    ∃ journal', (c.withRecords journal snapshot).frame sink =
      ((c.frame sink).1, (c.frame sink).2.withJournal journal') := by
  obtain ⟨journal₁, hrender⟩ := (c.opening sink).render_withJournal c.settings.renderCycles journal
  have hrendering : (c.withRecords journal snapshot).rendering sink =
    ((c.rendering sink).1, (c.rendering sink).2.withJournal journal₁) := hrender
  rw [frame, frame, hrendering]
  rcases c.rendering sink with ⟨excess | _ | pc, d⟩
  · exact c.resting_withRecords journal snapshot d journal₁
  · exact c.resting_withRecords journal snapshot d journal₁
  · exact ⟨journal₁, rfl⟩

/-- **A frame does not read the records.** -/
theorem runFrame_withRecords (c : Console κ) (journal : Journal) (snapshot : Option (Snapshot κ))
    (sink : σ) :
    ∃ journal', (c.withRecords journal snapshot).runFrame sink =
      ((c.runFrame sink).1, (c.runFrame sink).2.1.withRecords journal' snapshot,
        (c.runFrame sink).2.2) := by
  cases hh : c.halt with
  | some halt =>
    refine ⟨journal, ?_⟩
    rw [runFrame, runFrame, show (c.withRecords journal snapshot).halt = _ from hh, hh]
  | none =>
    obtain ⟨journal', hframe⟩ := c.frame_withRecords journal snapshot sink
    refine ⟨journal', ?_⟩
    rw [runFrame_of_not_halted hh, runFrame_of_not_halted (c := c.withRecords journal snapshot) hh,
      hframe]
    exact c.conclude_withRecords journal snapshot _ _ journal'

/-- Runs some frames, and collects what they come to. -/
def runFrames : Nat → Console κ → σ → List (Except Error Unit) × Console κ × σ
  | 0, c, sink => ([], c, sink)
  | k + 1, c, sink =>
    let (result, c, sink) := c.runFrame sink
    let (results, c, sink) := runFrames k c sink
    (result :: results, c, sink)

theorem runFrames_withRecords (k : Nat) (c : Console κ) (journal : Journal)
    (snapshot : Option (Snapshot κ)) (sink : σ) :
    ∃ journal', (c.withRecords journal snapshot).runFrames k sink =
      ((c.runFrames k sink).1, (c.runFrames k sink).2.1.withRecords journal' snapshot,
        (c.runFrames k sink).2.2) := by
  induction k generalizing c journal sink with
  | zero => exact ⟨journal, rfl⟩
  | succ k ih =>
    obtain ⟨journal₁, hframe⟩ := c.runFrame_withRecords journal snapshot sink
    obtain ⟨journal₂, hrest⟩ := ih (c.runFrame sink).2.1 journal₁ (c.runFrame sink).2.2
    refine ⟨journal₂, ?_⟩
    rw [runFrames, hframe]
    simp only [hrest]
    rfl

end Console

/-! ### What the snapshot leaves out -/

namespace Bus

variable {κ : Type} [Cartridge κ]

/-- Nothing is plugged into the sockets, and this is what the Game Genie does. -/
def Unplugged (gameGenie : Option GameGenie) (b : Bus κ) : Prop :=
  b.pads = .replicate 2 none ∧ b.gameGenie = gameGenie

theorem lasting_unplugged (gameGenie : Option GameGenie) :
    Lasting (Unplugged (κ := κ) gameGenie) where
  read {b} address h := by
    obtain ⟨hpads, hgenie⟩ := h
    unfold Bus.read
    split
    · exact ⟨hpads, hgenie⟩
    · exact ⟨hpads, hgenie⟩
    · rename_i i _
      refine ⟨?_, hgenie⟩
      show b.pads.set i _ = _
      -- reading shifts the pad in the socket, and there is none
      rw [hpads]
      ext j hj
      simp
    · exact ⟨hpads, hgenie⟩
    · exact ⟨hpads, hgenie⟩
  write {b} address byte h := by
    obtain ⟨hpads, hgenie⟩ := h
    unfold Bus.write
    split
    · exact ⟨hpads, hgenie⟩
    · exact ⟨hpads, hgenie⟩
    · unfold transfer
      exact ⟨hpads, hgenie⟩
    · refine ⟨?_, hgenie⟩
      show b.pads.map _ = _
      rw [hpads]
      ext j hj
      simp
    · exact ⟨hpads, hgenie⟩
    · exact ⟨hpads, hgenie⟩
  setRegs _ h := h
  takeStall h := h

end Bus

namespace Console

variable {κ : Type} [Cartridge κ] {c d : Console κ}

/-- The console `d` is what play has made of `c` since it was saved. -/
structure Played (c d : Console κ) : Prop where
  saved : d.snapshot = some c.capture
  settings : d.settings = c.settings
  unplugged : d.machine.bus.Unplugged c.machine.bus.gameGenie

theorem Played.perform {op : Operation} (hop : op.Plays) (h : Played c d) :
    Played c (d.perform op) := by
  cases op with
  | frame sink =>
    obtain ⟨hsettings, hsnapshot⟩ := d.runFrame_settings sink
    have hlasting := Bus.lasting_unplugged (κ := κ) c.machine.bus.gameGenie
    refine ⟨hsnapshot.trans h.saved, hsettings.trans h.settings, ?_⟩
    exact runFrame_keeps_bus (fun _ => Machine.step_lasting hlasting)
      (fun _ r => hlasting.setRegs r) h.unplugged sink
  | reset => exact ⟨h.saved, h.settings, h.unplugged⟩
  | _ => cases hop

omit [Cartridge κ] in
/-- What is taken up after play is the saved console, with other records. -/
theorem Played.restore (h : Played c d) (hc : c.machine.bus.Unplugged c.machine.bus.gameGenie)
    (hcstall : c.machine.bus.stall = 0) (hdstall : d.machine.bus.stall = 0) (hh : c.halt = d.halt) :
    ∃ journal, d.restore = .ok (c.withRecords journal none) := by
  obtain ⟨hsaved, hsettings, hpads, hgenie⟩ := h
  have hpads' := hc.1
  -- field by field: each is captured, or the same in both consoles by what is assumed
  obtain ⟨⟨cpu, ⟨cart, video, ram, pads, genie, stall⟩, journal⟩, raster, settings, snap, halt⟩ := c
  obtain ⟨⟨cpu', ⟨cart', video', ram', pads', genie', stall'⟩, journal'⟩, raster', settings', snap',
    halt'⟩ := d
  dsimp only at *
  subst hsaved hsettings hpads hgenie hpads' hcstall hdstall hh
  exact ⟨_, rfl⟩

/-- A console that goes on as another one would have, with nothing put aside any more. -/
structure GoesOnAs (c' c : Console κ) : Prop where
  /-- taking up a machine once more fails, and changes nothing -/
  spent : c'.restore = .error .noSnapshot ∧ c'.perform .restore = c'
  results {σ : Type} [PixelSink σ] (k : Nat) (sink : σ) :
    (c'.runFrames k sink).1 = (c.runFrames k sink).1
  sink {σ : Type} [PixelSink σ] (k : Nat) (sink : σ) :
    (c'.runFrames k sink).2.2 = (c.runFrames k sink).2.2
  /-- after so many frames everything is the same but the journal, and that nothing is put aside -/
  console {σ : Type} [PixelSink σ] (k : Nat) (sink : σ) :
    ∃ journal, (c'.runFrames k sink).2.1 = (c.runFrames k sink).2.1.withRecords journal none

theorem goesOnAs_withRecords (c : Console κ) (journal : Journal) :
    GoesOnAs (c.withRecords journal none) c where
  spent := ⟨rfl, rfl⟩
  results k sink := by
    obtain ⟨journal', h⟩ := c.runFrames_withRecords k journal none sink
    rw [h]
  sink k sink := by
    obtain ⟨journal', h⟩ := c.runFrames_withRecords k journal none sink
    rw [h]
  console k sink := by
    obtain ⟨journal', h⟩ := c.runFrames_withRecords k journal none sink
    rw [h]
    exact ⟨journal', rfl⟩

/-- **A machine taken up again goes on as before.**  The frames and resets that come between do not
matter, as long as the console is not left halted. -/
theorem Reachable.replay (hc : Reachable c) (hh : c.halt = none)
    (hpads : c.machine.bus.pads = .replicate 2 none) {ops : List Operation}
    (hops : ∀ op ∈ ops, op.Plays) (hlive : (c.save.after ops).halt = none) :
    ∃ c', (c.save.after ops).restore = .ok c' ∧ c'.GoesOnAs c := by
  have hplayed : Played c (c.save.after ops) :=
    after_keeps (fun _ _ => Played.perform) hops ⟨rfl, rfl, hpads, rfl⟩
  obtain ⟨journal, hrestore⟩ := hplayed.restore ⟨hpads, rfl⟩ hc.sound.stall
    (hc.save.after ops).sound.stall (hh.trans hlive.symm)
  exact ⟨_, hrestore, c.goesOnAs_withRecords journal⟩

theorem plain_replay :
    (plain 0x20 27508).Reachable ∧ (plain 0x20 27508).halt = none ∧
      (plain 0x20 27508).machine.bus.pads = .replicate 2 none ∧
      (∀ op ∈ [Operation.frame Screen.blank, .reset], op.Plays) ∧
      ((plain 0x20 27508).save.after [.frame Screen.blank, .reset]).halt = none ∧
      ∃ c', ((plain 0x20 27508).save.after [.frame Screen.blank, .reset]).restore = .ok c' ∧
        c'.GoesOnAs (plain 0x20 27508) := by
  have hplays : ∀ op ∈ [Operation.frame Screen.blank, .reset], op.Plays := by
    simp [Operation.Plays]
  exact ⟨plain_reachable _ _, rfl, rfl, hplays, rfl,
    Reachable.replay (plain_reachable 0x20 27508) rfl rfl hplays rfl⟩

end Console

end Famicom
