import Vitrin.Core.Input

/-!
# The geometry of a realm's view

Where a client's surface stands on the output: below the rows the core keeps for its own
band and strip, centred, one buffer pixel to one output pixel.
-/

namespace Vitrin

def trustBandHeight : Nat := 8

def stripTop : Nat := trustBandHeight

/-- Where a surface's top left corner is. -/
structure Placement where
  x : Int
  y : Int

/-- Centre a surface in a rectangle; an odd difference is halved towards zero. -/
def place (view surface : Nat × Nat) : Placement where
  x := ((view.1 : Int) - surface.1).tdiv 2
  y := ((view.2 : Int) - surface.2).tdiv 2

/-- The output's size, and how much of it the status strip takes. -/
structure ViewGeometry where
  output : Nat × Nat
  stripH : Nat

namespace ViewGeometry

def reservedTop (g : ViewGeometry) : Nat := min (min (stripTop + g.stripH) (2 ^ 32 - 1)) g.output.2

def usable (g : ViewGeometry) : Nat × Nat := (g.output.1, g.output.2 - g.reservedTop)

def place (g : ViewGeometry) (surface : Nat × Nat) : Placement where
  x := (Vitrin.place g.usable surface).x
  y := (Vitrin.place g.usable surface).y + g.reservedTop

end ViewGeometry

/-! ### Coordinates on a surface -/

namespace Coord

/-- `f64` subtraction of a whole number. -/
def sub (c : Coord) (n : Int) : Coord := match c with
  | .finite q => .finite (q - n)
  | .inf negative => .inf negative
  | .nan => .nan

/-- The coordinate lies in `[0, hi)`; not-a-number lies nowhere. -/
def within (c : Coord) (hi : Nat) : Bool := match c with
  | .finite q => decide (0 ≤ q) && decide (q < hi)
  | .inf _ | .nan => false

/-- `Fixed::from_f64`, as its 32 bits: 256ths, rounded half away from zero, saturating; not-a-number is zero. -/
def toFixed (c : Coord) : Int := match c with
  | .finite q =>
    let scaled := q * 256
    let rounded := if 0 ≤ scaled then (scaled + 1 / 2).floor else -(-scaled + 1 / 2).floor
    max (-2 ^ 31) (min rounded (2 ^ 31 - 1))
  | .inf true => -2 ^ 31
  | .inf false => 2 ^ 31 - 1
  | .nan => 0

end Coord

/-- A point of the view, from a surface's corner. -/
def surfaceLocal (point : Coord × Coord) (view : ViewGeometry) (surface : Nat × Nat) : Coord × Coord :=
  (point.1.sub (view.place surface).x, point.2.sub (view.place surface).y)

def inside (point : Coord × Coord) (surface : Nat × Nat) : Bool :=
  point.1.within surface.1 && point.2.within surface.2

end Vitrin
