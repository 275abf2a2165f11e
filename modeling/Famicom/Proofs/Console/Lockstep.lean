import Famicom.Proofs.Console.Moments
import Famicom.Proofs.Machine.Apart

/-!
# Drawing late is drawing in lockstep

A console draws only when the processor touches a register of the picture unit.  The reference draws
before every step up to the cycle at which the step begins, and no step of it is ever taken back
(`Drawing.lockstep`).  Both come to the same frame (`Reachable.runFrame_lockstep`).

The idea: at any moment the reference is where the console would be if it drew up to some tick
between its own and the processor's (`Lags`).  A step apart from the picture commutes with drawing,
so it may come before the pieces that the console still has to draw (`ran_commutes`).  A step that
is refused leaves nothing behind, and is made again where the reference makes it.
-/

namespace Famicom

open Picture Processor

/-! ### The reference -/

section Reference

variable {κ σ : Type} [Cartridge κ] [PixelSink σ]

/-- Draws up to where the processor stands, and then runs one step. -/
def Drawing.turn (d : Drawing κ σ) : Progress × Drawing κ σ :=
  (d.drawUntil d.tickOfCpu).onMachine Machine.step

/-- Takes turns while the processor has not run all cycles; there is nothing if so many turns are
not enough. -/
def Drawing.lockstep (cycles : Nat) : (turns : Nat) → Drawing κ σ → Option (Outcome × Drawing κ σ)
  | turns, d =>
    if d.machine.cpu.cycles.toNat < cycles then
      match turns with
      | 0 => none
      | turns + 1 =>
        match d.turn with
        | (.ran _, d) => lockstep cycles turns d
        | (.waits, d) => some (.waits, d)
        | (.halted pc, d) => some (.halted pc, d)
    else some (.completed (d.machine.cpu.cycles.toNat - cycles), d)

theorem Drawing.lockstep_of_le {d : Drawing κ σ} {cycles : Nat}
    (h : cycles ≤ d.machine.cpu.cycles.toNat) (turns : Nat) :
    lockstep cycles turns d = some (.completed (d.machine.cpu.cycles.toNat - cycles), d) := by
  cases turns <;> simp [lockstep, Nat.not_lt_of_le h]

theorem Drawing.lockstep_of_turn {d d' : Drawing κ σ} {cycles n : Nat}
    (h : d.machine.cpu.cycles.toNat < cycles) (hturn : d.turn = (.ran n, d')) (turns : Nat) :
    lockstep cycles (turns + 1) d = lockstep cycles turns d' := by
  simp [lockstep, h, hturn]

/-- Both phases of a frame in lockstep.  A turn takes more than one cycle, so as many turns as
cycles are enough. -/
def Console.lockstepFrame (c : Console κ) (sink : σ) : Option (Outcome × Drawing κ σ) :=
  match Drawing.lockstep c.settings.renderCycles c.settings.renderCycles
    (Drawing.beginFrame ⟨c.machine, c.raster, sink⟩ false) with
  | none => none
  | some (.halted pc, d) => some (.halted pc, d)
  | some (_, d) => some (c.resting d)

def Console.runLockstep (c : Console κ) (sink : σ) :
    Option (Except Error Unit × Console κ × σ) :=
  match c.halt with
  | some halt => some (.error (.halted halt), c, sink)
  | none => (c.lockstepFrame sink).map c.conclude

end Reference

/-! ### Layouts -/

namespace Console

variable {κ σ : Type} [Cartridge κ]

/-- The picture unit goes by the cartridge's layout, and did when the machine was saved. -/
structure LaidOut (c : Console κ) : Prop where
  machine : c.machine.bus.LaidOut
  saved : ∀ s, c.snapshot = some s → s.video.memory.layout = Cartridge.layout s.cartridge

namespace LaidOut

variable {c c' : Console κ}

theorem reset (h : ∀ s, c.snapshot = some s → s.video.memory.layout = Cartridge.layout s.cartridge) :
    c.reset.LaidOut := ⟨rfl, h⟩

theorem frame [Cartridge.Overt κ] [PixelSink σ] (h : c.LaidOut) (sink : σ) :
    (c.runFrame sink).2.1.LaidOut := by
  refine ⟨runFrame_keeps_bus (fun _ => Machine.step_laidOut) (fun _ _ h => h) h.machine sink, ?_⟩
  rw [(runFrame_settings c sink).2]
  exact h.saved

theorem withCode (h : c.LaidOut) (genie : Option GameGenie) (journal : Journal) :
    (c.withCode genie journal).LaidOut := ⟨h.machine, h.saved⟩

theorem disarm (h : c.LaidOut) : c.disarm.LaidOut := by
  obtain ⟨genie, journal, heq⟩ := disarm_eq_withCode c
  rw [heq]
  exact h.withCode genie journal

theorem save (h : c.LaidOut) : c.save.LaidOut := ⟨h.machine, fun s hs => by cases hs; exact h.machine⟩

/-- A snapshot brings the layout back together with the cartridge. -/
theorem restore (h : c.LaidOut) (h' : c.restore = .ok c') : c'.LaidOut := by
  obtain ⟨s, journal, hs, rfl⟩ := eq_take_of_restore h'
  exact ⟨h.saved s hs, fun s hs => by cases hs⟩

end LaidOut

theorem Reachable.laidOut [Cartridge.Overt κ] {c : Console κ} (h : Reachable c) : c.LaidOut := by
  induction h with
  | build h =>
    obtain ⟨m, rfl⟩ := eq_reset_of_build h
    exact .reset fun s hs => by cases hs
  | reset _ ih => exact .reset ih.saved
  | frame _ sink ih => exact ih.frame sink
  | arm _ h' ih =>
    obtain ⟨patch, journal, rfl⟩ := eq_withCode_of_arm h'
    exact ih.withCode _ journal
  | disarm _ ih => exact ih.disarm
  | save _ ih => exact ih.save
  | restore _ h' ih => exact ih.restore h'
  | pads _ pads ih => exact ⟨ih.machine, ih.saved⟩
  | journal _ journal ih => exact ⟨ih.machine, ih.saved⟩

end Console

/-! ### One step -/

/-- An access that neither starts a transfer nor fetches a part of an instruction from a pad. -/
def Access.Plain : Access → Prop
  | .read .code address => Bus.NoPad address
  | .read .data _ => True
  | .write address _ => address ≠ 0x4014

instance : DecidablePred Access.Plain
  | .read .code address => inferInstanceAs (Decidable (Bus.NoPad address))
  | .read .data _ => inferInstanceAs (Decidable True)
  | .write address _ => inferInstanceAs (Decidable (address ≠ 0x4014))

theorem Access.Plain.apart {a : Access} (h : a.Plain) (hreg : isRegister a.address = false) :
    a.Apart := by
  cases a with
  | read purpose address => exact hreg
  | write address byte => exact ⟨hreg, h⟩

namespace Drawing

variable {κ σ : Type} {r n : Nat} {d d₁ e : Drawing κ σ} {m : Machine κ}

/-- The one is the other with a picture that does not lag behind, and with a journal of its own. -/
structure Alike (d e : Drawing κ σ) : Prop where
  cpu : e.machine.cpu = d.machine.cpu.setAwaiting false
  bus : e.machine.bus = d.machine.bus
  raster : e.raster = d.raster
  sink : e.sink = d.sink

variable [Cartridge κ] [PixelSink σ]

theorem Alike.drawUntil (h : Alike d e) (target : Nat) :
    Alike (d.drawUntil target) (e.drawUntil target) := by
  obtain ⟨⟨cpu, bus, journal⟩, raster, sink⟩ := d
  obtain ⟨⟨cpu', bus', journal'⟩, raster', sink'⟩ := e
  obtain ⟨hcpu, hbus, hraster, hsink⟩ := h
  dsimp only at hcpu hbus hraster hsink
  subst hcpu hbus hraster hsink
  exact ⟨rfl, rfl, rfl, rfl⟩

/-- The reference stands where drawing up to some tick leads, which lies between the console's own
and the processor's, and not beyond the end of the picture. -/
def Lags (r : Nat) (d e : Drawing κ σ) : Prop :=
  ∃ t, d.elapsed ≤ t ∧ t ≤ d.tickOfCpu ∧ t ≤ r * ticksPerCycle ∧ Alike (d.drawUntil t) e

/-- Drawing up to the processor brings them together. -/
theorem Lags.caughtUp (h : Lags r d e) :
    Alike (d.drawUntil d.tickOfCpu) (e.drawUntil e.tickOfCpu) := by
  obtain ⟨t, -, ht, -, halike⟩ := h
  have htick : e.tickOfCpu = d.tickOfCpu := by
    unfold tickOfCpu
    rw [halike.cpu]
    rfl
  rw [htick, ← drawUntil_drawUntil d ht]
  exact halike.drawUntil _

theorem Lags.cycles (h : Lags r d e) : e.machine.cpu.cycles = d.machine.cpu.cycles := by
  obtain ⟨t, -, -, -, halike⟩ := h
  rw [halike.cpu]
  rfl

/-- Before vblank begins, what drawing does to the registers of the picture unit does not depend on
a pending interrupt. -/
theorem drawUntil_nmiPending (hcourse : d.raster.beam.OnCourse) {t : Nat}
    (ht : max d.elapsed t < Beam.vblankStart) :
    (d.drawUntil t).machine.bus.video.regs.nmiPending =
      d.machine.bus.video.regs.nmiPending := by
  show (d.drawUntil t).scan.regs.nmiPending = _
  rw [drawUntil_scan]
  refine Scan.run_nmiPending (s := d.scan) _ hcourse ?_
  show d.elapsed + (t - d.elapsed) < Beam.vblankStart
  omega

/-- An instruction that runs again, where the picture has been brought up to date, is a step of the
reference. -/
theorem turn_of_caughtUp (hs : d.machine.step = (.ran n, m)) (hcaught : d.elapsed = d.tickOfCpu)
    (halike : Alike (d.drawUntil d.tickOfCpu) (e.drawUntil e.tickOfCpu)) :
    ∃ e₁, e.turn = (.ran n, e₁) ∧
      Alike (({ d with machine := m } : Drawing κ σ).drawUntil d.tickOfCpu) e₁ := by
  have hle : d.tickOfCpu ≤ d.elapsed := Nat.le_of_eq hcaught.symm
  rw [drawUntil_of_le hle] at halike
  obtain ⟨v, hv, hcpu, hbus⟩ := Machine.ran_inStep hs halike.cpu halike.bus
  refine ⟨{ e.drawUntil e.tickOfCpu with machine := v }, ?_, ?_⟩
  · rw [turn, onMachine_eq, hv]
  · rw [drawUntil_of_le (d := { d with machine := m }) hle]
    exact ⟨hcpu, hbus, halike.raster, halike.sink⟩

/-- A step that is refused leaves nothing behind, and is a step of the reference when it is made
again. -/
theorem turn_of_waits (hs : d.machine.step = (.waits, m)) (hd : d.step = (.ran n, d₁))
    (ha : ∀ a ∈ d.machine.accesses, a.Plain) (hcourse : d.raster.beam.OnCourse)
    (hbehind : d.elapsed ≤ d.tickOfCpu) (ht : d.tickOfCpu < Beam.vblankStart)
    (halike : Alike (d.drawUntil d.tickOfCpu) (e.drawUntil e.tickOfCpu)) :
    ∃ e₁, e.turn = (.ran n, e₁) ∧ Alike (d₁.drawUntil d.tickOfCpu) e₁ ∧
      d₁.elapsed ≤ d.tickOfCpu := by
  have hbus : m.bus = d.machine.bus := by
    obtain ⟨w, hw, rfl⟩ := Machine.attempt_of_waits hs
    exact hw.bus_eq fun address h => ha _ h
  have hcpu := Machine.cpu_of_waits hs
  obtain ⟨cpu, bus, journal⟩ := m
  dsimp only at hbus hcpu
  subst hbus
  have htick : ({ d with machine := ⟨cpu, d.machine.bus, journal⟩ } : Drawing κ σ).tickOfCpu =
      d.tickOfCpu := by
    unfold tickOfCpu
    rw [hcpu]
  rw [step_of_waits hs, catchUp, htick, onMachine_eq] at hd
  obtain ⟨hran, rfl⟩ := Prod.mk.inj hd
  have hcaught : (d.drawUntil d.tickOfCpu).elapsed = d.tickOfCpu := by
    rw [drawUntil_elapsed]
    exact Nat.max_eq_right hbehind
  have hcode : isRegister d.machine.cpu.pc = false →
      ((d.drawUntil d.tickOfCpu).machine.bus.read d.machine.cpu.pc).1 =
        Program.opcodeAt d.machine := by
    intro hpc
    rw [drawUntil_bus, Bus.read_setRegs hpc]
    rfl
  have hnmi := drawUntil_nmiPending hcourse (t := d.tickOfCpu) (by omega)
  obtain ⟨v, hv, hvcpu, hvbus⟩ := Machine.ran_of_waits hs (Prod.ext hran rfl) hcode hnmi
    halike.cpu halike.bus
  refine ⟨{ e.drawUntil e.tickOfCpu with machine := v }, ?_, ?_, Nat.le_of_eq hcaught⟩
  · rw [turn, onMachine_eq, hv]
  · rw [drawUntil_of_le]
    · exact ⟨hvcpu, hvbus, halike.raster, halike.sink⟩
    · exact Nat.le_of_eq hcaught.symm

variable [Cartridge.Steady κ]

/-- **A step apart from the picture commutes with drawing.**  Drawn after the step, the same ticks
come to the same, but for the interrupt that the step may have taken. -/
theorem ran_commutes (hs : d.machine.step = (.ran n, m)) (ha : ∀ a ∈ d.machine.accesses, a.Apart)
    (hl : d.machine.bus.LaidOut) (hcourse : d.raster.beam.OnCourse) {t : Nat}
    (ht : max d.elapsed t < Beam.vblankStart) :
    (({ d with machine := m } : Drawing κ σ).drawUntil t).scan =
      (d.drawUntil t).scan.setNmi
        (!d.machine.nmiDue && d.machine.bus.video.regs.nmiPending) := by
  have hshows := Machine.ran_showsSame hs ha hl
  rw [Machine.takeNmi_bus] at hshows
  have hscan : ({ d with machine := m } : Drawing κ σ).scan = d.scan.setNmi
      (!d.machine.nmiDue && d.machine.bus.video.regs.nmiPending) := by
    show (⟨d.raster, m.bus.video.regs, d.sink⟩ : Scan σ) = _
    rw [hshows.video]
    rfl
  have hmemory : m.bus.video.memory = d.machine.bus.video.memory :=
    (congrArg Video.memory hshows.video).trans rfl
  rw [drawUntil_scan, drawUntil_scan, hscan, hmemory, Scan.run_congr hshows.patterns]
  refine Scan.run_setNmi (s := d.scan) _ _ ?_ ?_
  · exact hcourse
  · show d.elapsed + (t - d.elapsed) < Beam.vblankStart
    omega

/-- A step apart from the picture may come before what the reference draws first. -/
theorem turn_of_apart (hs : d.machine.step = (.ran n, m)) (ha : ∀ a ∈ d.machine.accesses, a.Apart)
    (hl : d.machine.bus.LaidOut) (hcourse : d.raster.beam.OnCourse)
    (hbehind : d.elapsed ≤ d.tickOfCpu) (ht : d.tickOfCpu < Beam.vblankStart)
    (halike : Alike (d.drawUntil d.tickOfCpu) (e.drawUntil e.tickOfCpu)) :
    ∃ e₁, e.turn = (.ran n, e₁) ∧
      Alike (({ d with machine := m } : Drawing κ σ).drawUntil d.tickOfCpu) e₁ := by
  have hlate : max d.elapsed d.tickOfCpu < Beam.vblankStart := by omega
  have hnmi := drawUntil_nmiPending hcourse hlate
  obtain ⟨v, hv, hcpu, hbus⟩ := Machine.ran_setRegs hs ha halike.cpu
    (halike.bus.trans (drawUntil_bus d _)) hnmi
  have hscan := ran_commutes hs ha hl hcourse hlate
  refine ⟨{ e.drawUntil e.tickOfCpu with machine := v }, ?_, hcpu, ?_, ?_, ?_⟩
  · rw [turn, onMachine_eq, hv]
  · rw [drawUntil_bus]
    refine hbus.trans (congrArg m.bus.setRegs ?_)
    rw [hnmi]
    exact (congrArg Scan.regs hscan).symm
  · exact halike.raster.trans (congrArg Scan.raster hscan).symm
  · exact halike.sink.trans (congrArg Scan.sink hscan).symm

/-- **A step of the console is a turn of the reference.** -/
theorem Lags.step (h : Lags r d e) (hin : Moment.InStep r ⟨.running, d⟩) (hr : r ≤ 27508)
    (hlt : d.machine.cpu.cycles.toNat < r) (hl : d.machine.bus.LaidOut)
    (ha : ∀ a ∈ d.machine.accesses, a.Plain) (hd : d.step = (.ran n, d₁))
    (hle : d.tickOfCpu ≤ d₁.tickOfCpu) : ∃ e₁, e.turn = (.ran n, e₁) ∧ Lags r d₁ e₁ := by
  have halike := h.caughtUp
  have htick : d.tickOfCpu = d.machine.cpu.cycles.toNat * 3 := rfl
  have hlate : d.tickOfCpu < Beam.vblankStart := by
    simp only [Beam.vblankStart]
    omega
  have hwithin : d.tickOfCpu ≤ r * ticksPerCycle := by
    simp only [ticksPerCycle]
    omega
  rcases hs : d.machine.step with ⟨p, m⟩
  by_cases hw : p = .waits
  · subst hw
    obtain ⟨e₁, hturn, h₁, hel⟩ := turn_of_waits hs hd ha hin.onCourse hin.behind hlate halike
    exact ⟨e₁, hturn, _, hel, hle, hwithin, h₁⟩
  · rw [step_of_ne_waits (by rw [hs]; exact hw), hs] at hd
    cases hd
    obtain ⟨e₁, hturn, h₁⟩ : ∃ e₁, e.turn = (.ran n, e₁) ∧
        Alike (({ d with machine := m } : Drawing κ σ).drawUntil d.tickOfCpu) e₁ := by
      cases hretry : d.machine.cpu.sync.retrying with
      | true => exact turn_of_caughtUp hs (hin.fits hretry).1 halike
      | false =>
        have hm : d.machine.cpu.sync.mustWait = true := by
          rw [Sync.mustWait, hin.awaiting, hretry]
          rfl
        have happ (a : Access) (h : a ∈ d.machine.accesses) : a.Apart :=
          (ha a h).apart (Machine.accesses_of_mustWait hm a h)
        exact turn_of_apart hs happ hl hin.onCourse hin.behind hlate halike
    exact ⟨e₁, hturn, _, hin.behind, hle, hwithin, h₁⟩

/-- **A phase of the console that does not halt is one in lockstep.**  The induction is on the
cycles that are left of the walk; a turn is taken wherever a step starts. -/
theorem lockstep_of_walk {d₀ : Drawing κ σ} (hr : r ≤ 27508)
    (h₀ : Moment.InStep r ⟨.running, d₀⟩)
    (ha : ∀ d, Moment.Passes r d₀ ⟨.running, d⟩ → d.machine.cpu.cycles.toNat < r →
      ∀ a ∈ d.machine.accesses, a.Plain)
    (k busy turns : Nat) (h : Moment.Passes r d₀ ⟨.running, d⟩)
    (hk : d.machine.cpu.cycles.toNat + k = r + busy) (hturns : k ≤ turns + busy)
    (hl : d.machine.bus.LaidOut)
    (hlag : Lags r d e) (hhalt : ∀ pc, (walk step k busy d).1 ≠ .halted pc) :
    ∃ excess d' e', walk step k busy d = (.completed excess, d') ∧
      lockstep r turns e = some (.completed excess, e') ∧ Lags r d' e' := by
  have hr' : 3 * r < UInt32.size := by
    simp only [UInt32.size]
    omega
  induction k generalizing busy turns d e with
  | zero =>
    refine ⟨busy, d, e, rfl, ?_, hlag⟩
    have hcycles : e.machine.cpu.cycles.toNat = r + busy := by
      rw [hlag.cycles]
      exact hk
    rw [lockstep_of_le (by omega), hcycles, Nat.add_sub_cancel_left]
  | succ k ih =>
    cases busy with
    | succ busy => exact ih busy turns h (by omega) (by omega) hl hlag hhalt
    | zero =>
      have hlt : d.machine.cpu.cycles.toNat < r := by omega
      rw [walk] at hhalt ⊢
      rcases hs : d.step with ⟨p, d₁⟩
      rw [hs] at hhalt
      cases p with
      | ran n =>
        obtain ⟨h₁, hn, htwo⟩ := h.ran hr' h₀.toCounted hlt hs
        have hl₁ : d₁.machine.bus.LaidOut := by
          have hkeeps := step_keeps (P := fun m : Machine κ => m.bus.LaidOut)
            (fun _ => Machine.step_laidOut) (fun _ _ _ h => h) hl
          rwa [hs] at hkeeps
        have hle : d.tickOfCpu ≤ d₁.tickOfCpu := Nat.mul_le_mul_right _ (by omega)
        obtain ⟨e₁, hturn, hlag₁⟩ := hlag.step (h.inStep hr' h₀) hr hlt hl (ha d h hlt) hs hle
        cases turns with
        | zero => omega
        | succ turns =>
          rw [lockstep_of_turn (by rw [hlag.cycles]; exact hlt) hturn]
          exact ih (n - 1) turns h₁ (by omega) (by omega) hl₁ hlag₁ hhalt
      | waits =>
        obtain ⟨d₂, -, -, hne, hstep⟩ := h.step hlt
        rw [hstep] at hs
        exact absurd (congrArg Prod.fst hs) hne
      | halted pc => exact absurd rfl (hhalt pc)

end Drawing

/-! ### Frames -/

namespace Console

variable {κ σ : Type}

/-- The console but for what its journal says. -/
def withoutJournal (c : Console κ) : Console κ :=
  { c with machine := { c.machine with journal := {} } }

theorem conclude_alike (c : Console κ) (outcome : Outcome) {d e : Drawing κ σ}
    (hcpu : e.machine.cpu = d.machine.cpu) (hbus : e.machine.bus = d.machine.bus)
    (hraster : e.raster = d.raster) (hsink : e.sink = d.sink) :
    ∃ c', c.conclude (outcome, e) =
        ((c.conclude (outcome, d)).1, c', (c.conclude (outcome, d)).2.2) ∧
      c'.withoutJournal = (c.conclude (outcome, d)).2.1.withoutJournal := by
  obtain ⟨⟨_, _, _⟩, _, _⟩ := d
  obtain ⟨⟨_, _, _⟩, _, _⟩ := e
  dsimp only at hcpu hbus hraster hsink
  subst hcpu hbus hraster hsink
  cases outcome <;> exact ⟨_, rfl, rfl⟩

variable [Cartridge κ] [PixelSink σ]

/-- Up to the last cycle of the first phase, no instruction starts a transfer, and none is fetched
from a pad. -/
def Undisturbed (c : Console κ) (sink : σ) : Prop :=
  ∀ d, c.Passes sink ⟨.running, d⟩ → d.machine.cpu.cycles.toNat < c.settings.renderCycles →
    ∀ a ∈ d.machine.accesses, a.Plain

theorem opening_lags (c : Console κ) (sink : σ) :
    Drawing.Lags c.settings.renderCycles (c.opening sink)
      (Drawing.beginFrame ⟨c.machine, c.raster, sink⟩ false) :=
  ⟨0, Nat.le_refl 0, Nat.zero_le _, Nat.zero_le _, rfl, rfl, rfl, rfl⟩

/-- In the second phase nothing is drawn, and the machines differ in their journals at most. -/
theorem resting_alike (c : Console κ) {d e : Drawing κ σ}
    (hlag : Drawing.Lags c.settings.renderCycles d e) :
    ∃ c', c.conclude (c.resting e) =
        ((c.conclude (c.resting d)).1, c', (c.conclude (c.resting d)).2.2) ∧
      c'.withoutJournal = (c.conclude (c.resting d)).2.1.withoutJournal := by
  obtain ⟨t, -, -, ht, halike⟩ := hlag
  replace ht : t ≤ c.settings.renderTicks := ht
  have hdrawn := halike.drawUntil c.settings.renderTicks
  rw [Drawing.drawUntil_drawUntil d ht] at hdrawn
  have hcpu : (e.endRender c.settings.renderTicks).machine.cpu =
      (d.endRender c.settings.renderTicks).machine.cpu := by
    show (e.drawUntil c.settings.renderTicks).machine.cpu.setAwaiting false = _
    rw [hdrawn.cpu]
    rfl
  have hmachine : (e.endRender c.settings.renderTicks).machine =
      { (d.endRender c.settings.renderTicks).machine with journal := e.machine.journal } :=
    (Machine.mk.injEq ..).mpr ⟨hcpu, hdrawn.bus, rfl⟩
  obtain ⟨journal, hburst⟩ := (d.endRender c.settings.renderTicks).machine.burst_journal
    c.settings.vblankCycles e.machine.journal
  rw [← hmachine] at hburst
  rw [resting, resting, Drawing.onMachine_eq, Drawing.onMachine_eq, hburst]
  exact c.conclude_alike _ rfl rfl hdrawn.raster hdrawn.sink

/-- **Drawing late is drawing in lockstep.**  For every sink, a frame whose first phase is
undisturbed and does not halt comes to the same result, shows the sink the same and leaves the same
console, but for its journal, as the frame in lockstep. -/
theorem Reachable.runFrame_lockstep {c : Console Board} (hc : c.Reachable) (hh : c.halt = none)
    (hs : c.settings.synchronised = true) (hr : c.settings.renderCycles ≤ 27508) (sink : σ)
    (hhalt : ∀ pc, (c.rendering sink).1 ≠ .halted pc) (hundisturbed : c.Undisturbed sink) :
    ∃ c', c.runLockstep sink = some ((c.runFrame sink).1, c', (c.runFrame sink).2.2) ∧
      c'.withoutJournal = (c.runFrame sink).2.1.withoutJournal := by
  have h₀ := hc.sound.opening hs sink
  obtain ⟨excess, d, e, hd, he, hlag⟩ := Drawing.lockstep_of_walk hr h₀ hundisturbed
    c.settings.renderCycles 0 c.settings.renderCycles .start (Nat.zero_add _) (Nat.le_refl _)
    hc.laidOut.machine (c.opening_lags sink) hhalt
  have hrendering : c.rendering sink = (.completed excess, d) := hd
  rw [runFrame_of_not_halted hh, Console.frame, hrendering, runLockstep, hh, lockstepFrame, he]
  obtain ⟨c', hc', hjournal⟩ := c.resting_alike hlag
  exact ⟨c', congrArg some hc', hjournal⟩

/-- A phase of four cycles fetches both of its instructions from registers, each only after it was
refused. -/
theorem plain_undisturbed : (plain 0x20 4).Undisturbed Screen.blank := by
  intro d hd hlt
  obtain ⟨n, hn⟩ := hd.exists_after
  by_cases h : n < 12
  · have hplain : ∀ n < 12, (Moment.after 4 n ⟨.running, (plain 0x20 4).opening Screen.blank⟩).all
        (fun t => t.drawing.machine.accesses.all (decide ·.Plain)) = true := by decide +kernel
    have hall := hplain n h
    rw [show Moment.after 4 n ⟨.running, (plain 0x20 4).opening Screen.blank⟩ = _ from hn] at hall
    simpa using hall
  · have hover : (Moment.after 4 12 ⟨.running, (plain 0x20 4).opening Screen.blank⟩).map
        (fun t => t.drawing.machine.cpu.cycles) = some 4 := by decide +kernel
    obtain ⟨t, ht, hcycles⟩ := Option.map_eq_some_iff.mp hover
    have hlater := Moment.after_cycles ht (by rw [hcycles]; decide) hn (Nat.le_of_not_lt h)
    rw [hlater, hcycles] at hlt
    exact absurd hlt (by decide)

theorem plain_lockstep :
    ∃ c', (plain 0x20 4).runLockstep Screen.blank =
        some (((plain 0x20 4).runFrame Screen.blank).1, c',
          ((plain 0x20 4).runFrame Screen.blank).2.2) ∧
      c'.withoutJournal = ((plain 0x20 4).runFrame Screen.blank).2.1.withoutJournal := by
  refine Reachable.runFrame_lockstep (plain_reachable 0x20 4) rfl rfl (by decide) Screen.blank ?_
    plain_undisturbed
  have hrendering : ((plain 0x20 4).rendering Screen.blank).1 = .completed 0 := by decide +kernel
  simp [hrendering]

end Console

end Famicom
