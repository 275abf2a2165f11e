import Famicom.Proofs.Picture.Shares

/-!
# What a sink is sent

Whatever the registers and the memory hold at each tick, the calls to the sink come in a fixed
order: after `e` ticks of a frame it has been sent the first `pixelsBy e` pixels, line by line from
the left, and nothing else until the picture is complete.  `Sent sink₀ e sink` says so of a sink
that was `sink₀` when the frame began.

A tick keeps it (`Scan.step_sent`), up to the tick with which the next picture would begin to be
drawn (`lastTick`).  It is a law of single ticks because between any two of them the processor may
change everything but the place of the beam.
-/

namespace Famicom.Picture

inductive Call where
  | pixel (x y : Nat) (colour : UInt8)
  | complete
  deriving DecidableEq, Repr

/-- The calls for the first pixels of a picture, given their colours line by line. -/
def pixelCalls (colours : List UInt8) : List Call :=
  colours.mapIdx fun i colour => .pixel (i % width) (i / width) colour

theorem pixelCalls_concat (colours : List UInt8) (colour : UInt8) :
    pixelCalls (colours ++ [colour]) = pixelCalls colours ++
      [.pixel (colours.length % width) (colours.length / width) colour] :=
  List.mapIdx_concat

/-- How many pixels are out after that many ticks: none on the line that prepares the picture, then
256 a line on 240 lines. -/
def pixelsBy (elapsed : Nat) : Nat :=
  if elapsed < ticksPerLine then 0
  else if elapsed < ticksPerLine * 241 then
    width * (elapsed / ticksPerLine - 1) + min (elapsed % ticksPerLine) width
  else width * height

/-- The picture is reported complete after that many ticks. -/
def completeBy (elapsed : Nat) : List Call :=
  if elapsed < ticksPerLine * 241 then [] else [.complete]

/-- After this many ticks the first pixel of the next picture is put out. -/
def lastTick : Nat := ticksPerLine * (linesPerFrame + 1)

section Sinks

variable {κ σ : Type} [PixelSink σ]

def Call.send (sink : σ) : Call → σ
  | .pixel x y colour => PixelSink.putPixel sink x y colour
  | .complete => PixelSink.frameComplete sink

def sendAll (sink : σ) (calls : List Call) : σ := calls.foldl Call.send sink

theorem sendAll_concat (sink : σ) (calls : List Call) (call : Call) :
    sendAll sink (calls ++ [call]) = call.send (sendAll sink calls) := by
  rw [sendAll, List.foldl_append]
  rfl

/-- What a sink has become after the calls of that many ticks. -/
def Sent (sink₀ : σ) (elapsed : Nat) (sink : σ) : Prop :=
  ∃ colours : List UInt8, colours.length = pixelsBy elapsed ∧ (∀ colour ∈ colours, colour < 64) ∧
    sink = sendAll sink₀ (pixelCalls colours ++ completeBy elapsed)

variable {sink₀ sink : σ} {e : Nat}

theorem Sent.start (sink : σ) : Sent sink 0 sink :=
  ⟨[], rfl, by simp, rfl⟩

theorem Sent.silent (h : Sent sink₀ e sink) (hp : pixelsBy (e + 1) = pixelsBy e)
    (hc : completeBy (e + 1) = completeBy e) : Sent sink₀ (e + 1) sink := by
  obtain ⟨colours, hlength, hcolours, hsink⟩ := h
  refine ⟨colours, ?_, hcolours, ?_⟩
  · rw [hp, hlength]
  · rw [hc, hsink]

theorem Sent.pixel (h : Sent sink₀ e sink) {x y : Nat} (hx : x < width)
    (hxy : pixelsBy e = width * y + x) (hp : pixelsBy (e + 1) = pixelsBy e + 1)
    (he : e + 1 < ticksPerLine * 241) {colour : UInt8} (hcolour : colour < 64) :
    Sent sink₀ (e + 1) (PixelSink.putPixel sink x y colour) := by
  obtain ⟨colours, hlength, hcolours, hsink⟩ := h
  have hmod : colours.length % width = x := by
    rw [hlength, hxy, Nat.mul_add_mod, Nat.mod_eq_of_lt hx]
  have hdiv : colours.length / width = y := by
    rw [hlength, hxy, Nat.mul_add_div (by decide), Nat.div_eq_of_lt hx, Nat.add_zero]
  have hbefore : completeBy e = [] := if_pos (Nat.lt_of_succ_lt he)
  have hafter : completeBy (e + 1) = [] := if_pos he
  refine ⟨colours ++ [colour], ?_, ?_, ?_⟩
  · rw [List.length_append, hlength, hp]
    rfl
  · intro k hk
    rcases List.mem_append.mp hk with hk | hk
    · exact hcolours k hk
    · rwa [List.mem_singleton.mp hk]
  · rw [hafter, List.append_nil, pixelCalls_concat, sendAll_concat, hmod, hdiv, hsink, hbefore,
      List.append_nil]
    rfl

theorem Sent.complete (h : Sent sink₀ e sink) (he : e + 1 = ticksPerLine * 241) :
    Sent sink₀ (e + 1) (PixelSink.frameComplete sink) := by
  obtain ⟨colours, hlength, hcolours, hsink⟩ := h
  obtain rfl : e = ticksPerLine * 240 + 340 := Nat.succ.inj he
  refine ⟨colours, hlength, hcolours, ?_⟩
  rw [hsink, show completeBy (ticksPerLine * 240 + 340) = [] from rfl, List.append_nil,
    show completeBy (ticksPerLine * 240 + 340 + 1) = [.complete] from rfl, sendAll_concat]
  rfl

/-- Once the last visible line is out, it is the whole picture. -/
theorem Sent.whole (h : Sent sink₀ e sink) (he : ticksPerLine * 241 ≤ e) :
    ∃ colours : List UInt8, colours.length = width * height ∧ (∀ colour ∈ colours, colour < 64) ∧
      sink = sendAll sink₀ (pixelCalls colours ++ [.complete]) := by
  obtain ⟨colours, hlength, hcolours, hsink⟩ := h
  have hline : ¬ e < ticksPerLine := Nat.not_lt.mpr (Nat.le_trans (by decide) he)
  have hover : ¬ e < ticksPerLine * 241 := Nat.not_lt.mpr he
  rw [pixelsBy, if_neg hline, if_neg hover] at hlength
  rw [completeBy, if_neg hover] at hsink
  exact ⟨colours, hlength, hcolours, hsink⟩

/-! ### Colours -/

theorem Mask.colourMask_lt (m : Mask) : m.colourMask < 64 := by
  unfold Mask.colourMask
  split <;> decide

theorem Memory.colour_lt (m : Memory) (mask : Mask) (palette pixel : UInt8) :
    m.colour mask.colourMask palette pixel < 64 := by
  have hmask : mask.colourMask.toNat < 64 := mask.colourMask_lt
  show (m.colour _ palette pixel).toNat < 64
  rw [Memory.colour, UInt8.toNat_and]
  exact Nat.lt_of_le_of_lt Nat.and_le_right hmask

theorem Raster.colour_lt (r : Raster) (m : Memory) (regs : Registers) : r.colour m regs < 64 := by
  unfold Raster.colour
  split
  dsimp only
  split
  · split <;> exact m.colour_lt ..
  · exact m.colour_lt ..

/-! ### Ticks -/

variable [Cartridge κ] {cart : κ} {m : Memory} {s : Scan σ}

/-- **What one tick sends.** -/
theorem Scan.step_sent (hs : s.raster.beam.OnCourse) (he : s.raster.beam.elapsed + 1 ≤ lastTick)
    (h : Sent sink₀ s.raster.beam.elapsed s.sink) :
    Sent sink₀ (s.raster.beam.elapsed + 1) (s.step cart m).sink := by
  obtain ⟨hline, htick⟩ := hs.next
  rw [Beam.next_elapsed] at hline htick
  rw [step_sink (by rw [hline]; simp only [Beam.preparing, linesPerFrame]; omega), Beam.sinkShare]
  -- the place of the beam is told by the ticks now, and what is left is to count them
  generalize s.raster.beam.elapsed = e at *
  simp only [Beam.preparing, ticksPerLine, linesPerFrame, lastTick] at hline htick he
  split
  · rename_i hdraws
    obtain ⟨hvisible, hfirst, hlast⟩ := hdraws
    rw [hline] at hvisible
    rw [htick] at hfirst hlast
    refine h.pixel ?_ ?_ ?_ ?_ (Raster.colour_lt ..)
    · rw [htick, width]
      omega
    · rw [hline, htick]
      simp only [pixelsBy, width, ticksPerLine]
      split_ifs <;> omega
    · simp only [pixelsBy, width, ticksPerLine]
      split_ifs <;> omega
    · simp only [ticksPerLine]
      omega
  · rename_i hdraws
    have hdark : ¬ ((261 + (e + 1) / 341) % 262 < 240 ∧ 1 ≤ (e + 1) % 341 ∧ (e + 1) % 341 ≤ 256) := by
      rw [← hline, ← htick]
      exact hdraws
    split
    · rename_i hlast
      apply h.complete
      simp only [ticksPerLine]
      omega
    · rename_i hlast
      apply h.silent
      · simp only [pixelsBy, width, height, ticksPerLine]
        split_ifs <;> omega
      · simp only [completeBy, ticksPerLine]
        split_ifs <;> first | rfl | omega

end Sinks

end Famicom.Picture
