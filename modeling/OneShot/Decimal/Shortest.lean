/-!
# The fewest decimal digits that read back

A finite binary float stands for the interval of the reals that round to it.
`Binary.shortest` selects the decimal with the fewest digits in that interval
and, of several, the one closest to the float.  All arithmetic is exact, on
natural numbers.
-/

namespace OneShot.Decimal

/-- A finite non-negative binary float, `significand * 2 ^ scale`. -/
structure Binary where
  significand : Nat
  scale : Int
  /-- The gap to the float below is half the gap to the float above. -/
  narrowBelow : Bool

/-- The magnitude held by the bits of a finite float. -/
def Binary.ofBits (bits : UInt64) : Binary :=
  let exponent := ((bits >>> 52) &&& 0x7FF).toNat
  let fraction := (bits &&& 0xFFFFFFFFFFFFF).toNat
  if exponent == 0 then ⟨fraction, -1074, false⟩
  else ⟨Nat.pow 2 52 + fraction, (exponent : Int) - 1075, fraction == 0 && exponent > 1⟩

/-- A decimal `digits * 10 ^ exponent`. -/
structure Dec where
  digits : Nat
  exponent : Int
  deriving Repr, DecidableEq

/-- A value and the ends of its rounding interval, measured in the points of
the decimal grid `10 ^ grid`: each is the given number over `unit`. -/
structure GridView where
  low : Nat
  value : Nat
  high : Nat
  unit : Nat
  /-- The ends themselves round to the value. -/
  closed : Bool

/-- The float seen on the grid `10 ^ grid`. -/
def Binary.onGrid (x : Binary) (grid : Int) : GridView :=
  let quarter := x.scale - 2
  let up := Nat.pow 2 quarter.toNat * Nat.pow 10 (-grid).toNat
  { low := (4 * x.significand - if x.narrowBelow then 1 else 2) * up
    value := 4 * x.significand * up
    high := (4 * x.significand + 2) * up
    unit := Nat.pow 2 (-quarter).toNat * Nat.pow 10 grid.toNat
    closed := x.significand % 2 == 0 }

/-- Whether a point of the grid rounds to the value. -/
def GridView.holds (view : GridView) (point : Nat) : Bool :=
  let here := point * view.unit
  if view.closed then view.low ≤ here && here ≤ view.high
  else view.low < here && here < view.high

/-- The point of the grid that rounds to the value, the closer one if both
neighbours do, the even one if they are equally close. -/
def GridView.nearest? (view : GridView) : Option Nat :=
  let below := view.value / view.unit
  let above := below + 1
  match view.holds below, view.holds above with
  | true, false => some below
  | false, true => some above
  | false, false => none
  | true, true =>
      match compare (2 * view.value) ((below + above) * view.unit) with
      | .lt => some below
      | .gt => some above
      | .eq => some (if below % 2 == 0 then below else above)

/-- Whether a float lies below `10 ^ power`. -/
def Binary.below (x : Binary) (power : Int) : Bool :=
  x.significand * Nat.pow 2 x.scale.toNat * Nat.pow 10 (-power).toNat <
    Nat.pow 10 power.toNat * Nat.pow 2 (-x.scale).toNat

/-- The least power of ten above a positive float. -/
def Binary.magnitude (x : Binary) : Int :=
  let estimate := ((x.significand.log2 : Int) + x.scale) * 30103 / 100000
  ([estimate - 1, estimate, estimate + 1].find? x.below).getD (estimate + 2)

/-- Move the zeros at the end of the digits into the exponent. -/
def Dec.stripped : Nat → Dec → Dec
  | 0, d => d
  | fuel + 1, d =>
      if d.digits % 10 == 0 && d.digits != 0 then
        Dec.stripped fuel ⟨d.digits / 10, d.exponent + 1⟩
      else d

/-- The fewest digits that read back to a float; seventeen always suffice. -/
def Binary.shortest (x : Binary) : Dec :=
  if x.significand == 0 then ⟨0, 0⟩
  else
    let top := x.magnitude
    let candidate := (List.range 17).findSome? fun count =>
      let grid := top - (count + 1 : Nat)
      ((x.onGrid grid).nearest?).map fun digits => Dec.mk digits grid
    match candidate with
    | some d => d.stripped 18
    | none =>
        -- the exact value, were no grid to suffice
        if x.scale < 0 then
          ⟨x.significand * Nat.pow 5 (-x.scale).toNat, x.scale⟩
        else ⟨x.significand * Nat.pow 2 x.scale.toNat, 0⟩

end OneShot.Decimal
