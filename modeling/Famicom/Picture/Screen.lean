/-!
# Where the picture goes

Anything that takes pixels one by one and is told when a picture is complete can be drawn to
(`PixelSink`).  A `Screen` is the sink that remembers the last colour of every pixel.
-/

namespace Famicom.Picture

abbrev width : Nat := 256

abbrev height : Nat := 240

/-- A taker of pixels. -/
class PixelSink (σ : Type) where
  /-- takes a colour for the pixel at column `x` of line `y` -/
  putPixel : σ → Nat → Nat → UInt8 → σ
  /-- is told that every pixel of a picture is out -/
  frameComplete : σ → σ := id

/-- A picture of colour numbers and the count of those completed. -/
structure Screen where
  pixels : Vector UInt8 (width * height)
  frames : Nat

namespace Screen

/-- A screen on which nothing has been drawn. -/
def blank : Screen := ⟨.replicate _ 0, 0⟩

def pixel (s : Screen) (x : Fin width) (y : Fin height) : UInt8 :=
  have : width * y.val + x.val < width * height := by
    have := x.isLt; have := y.isLt; simp only [width, height] at *; omega
  s.pixels[width * y.val + x.val]

/-- Draws a pixel; places beyond the edges are ignored. -/
def putPixel (s : Screen) (x y : Nat) (colour : UInt8) : Screen :=
  if h : x < width ∧ y < height then
    { s with
      pixels := s.pixels.set (width * y + x) colour
        (by obtain ⟨hx, hy⟩ := h; simp only [width, height] at *; omega) }
  else s

instance : PixelSink Screen where
  putPixel := putPixel
  frameComplete s := { s with frames := s.frames + 1 }

end Screen

end Famicom.Picture
