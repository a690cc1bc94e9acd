/-!
# Shortest Decimal Text of a Double

A finite double is `m * 2 ^ q`. The decimals that read back as it form an interval around
it, whose ends belong to it exactly when `m` is even. `digits` takes the coarsest decimal
grid with a point in the interval and, of the two grid points next to the value, the
nearer one; a tie goes to the even point. All arithmetic is exact, on natural numbers.

`positional` is the format of messages: digits written out without an exponent, at least
one digit on each side of the point.
-/

namespace SourceOutline

/-- A double, by its bits. -/
structure Double where
  bits : UInt64
  deriving DecidableEq, Repr, Inhabited

namespace Double

/-- The double nearest to `mantissa * 10 ^ exponent`, negated if `negative`. -/
def ofDecimal (negative : Bool) (mantissa : Nat) (exponent : Int) : Double :=
  let magnitude :=
    if exponent < 0 then Float.ofScientific mantissa true exponent.natAbs
    else Float.ofScientific mantissa false exponent.natAbs
  ⟨(if negative then -magnitude else magnitude).toBits⟩

/-- Positive infinity. -/
def infinity : Double := ⟨0x7FF0000000000000⟩

/-- Negative infinity. -/
def negInfinity : Double := ⟨0xFFF0000000000000⟩

/-- A value that is not a number. -/
def nan : Double := ⟨0x7FF8000000000000⟩

/-- Whether the sign bit is set. -/
def isNegative (d : Double) : Bool :=
  d.bits >>> 63 == 1

/-- The biased exponent. -/
def biased (d : Double) : Nat :=
  ((d.bits >>> 52) &&& 0x7FF).toNat

/-- The fraction bits. -/
def fraction (d : Double) : Nat :=
  (d.bits &&& 0xFFFFFFFFFFFFF).toNat

/-- Neither infinite nor a value that is not a number. -/
def isFinite (d : Double) : Bool :=
  d.biased != 2047

/-- The magnitude of a finite double as `m * 2 ^ q`. -/
def scaled (d : Double) : Nat × Int :=
  if d.biased = 0 then (d.fraction, -1074)
  else (d.fraction + 0x10000000000000, (d.biased : Int) - 1075)

/-- A value and the ends of the interval that rounds to it, as numerators over one
denominator. -/
structure Interval where
  low : Nat
  value : Nat
  high : Nat
  denominator : Nat
  closed : Bool

/-- The interval of the reals that round to a finite double. -/
def interval (d : Double) : Interval :=
  let (m, q) := d.scaled
  let lowerIsNear := d.fraction = 0 && 1 < d.biased
  -- numerators in quarters of a unit in the last place
  let low := if lowerIsNear then 4 * m - 1 else 4 * m - 2
  let high := 4 * m + 2
  if q < 2 then
    { low, value := 4 * m, high, denominator := Nat.pow 2 (2 - q).toNat, closed := m % 2 == 0 }
  else
    let scale := Nat.pow 2 (q - 2).toNat
    { low := low * scale, value := 4 * m * scale, high := high * scale, denominator := 1,
      closed := m % 2 == 0 }

/-- Whether `numerator / i.denominator` lies in the interval. -/
def Interval.holds (i : Interval) (numerator : Nat) : Bool :=
  if i.closed then i.low ≤ numerator && numerator ≤ i.high
  else i.low < numerator && numerator < i.high

/-- The nearest point of the grid `10 ^ e` to the value that lies in the interval, if one
does: the `n` of `n * 10 ^ e`. -/
def Interval.gridPoint? (i : Interval) (e : Int) : Option Nat :=
  -- the same interval over a denominator in which the grid step is a whole number of parts
  let up := if e < 0 then Nat.pow 10 e.natAbs else 1
  let step := (if e < 0 then 1 else Nat.pow 10 e.natAbs) * i.denominator
  let fine : Interval :=
    { low := i.low * up, value := i.value * up, high := i.high * up,
      denominator := i.denominator, closed := i.closed }
  let below := fine.value / step
  let above := below + 1
  let lowHit := fine.holds (below * step)
  let highHit := fine.holds (above * step)
  match lowHit, highHit with
  | false, false => none
  | true, false => some below
  | false, true => some above
  | true, true =>
    let toLow := fine.value - below * step
    let toHigh := above * step - fine.value
    if toLow < toHigh then some below
    else if toHigh < toLow then some above
    else if below % 2 = 0 then some below else some above

/-- The first grid with a hit, from the exponent `e` downwards. -/
def Interval.search (i : Interval) : Nat → Int → Nat × Int
  | 0, e => (0, e)
  | fuel + 1, e =>
    match i.gridPoint? e with
    | some n => if n = 0 then i.search fuel (e - 1) else (n, e)
    | none => i.search fuel (e - 1)

/-- The shortest digits of a finite double: `(n, e)` for `n * 10 ^ e`. Zero is `(0, 0)`. -/
def digits (d : Double) : Nat × Int :=
  if d.scaled.1 = 0 then (0, 0) else d.interval.search 700 310

/-- The text of a finite double in positional notation, with a digit on each side of the
point. -/
def positional (d : Double) : String :=
  let (n, e) := d.digits
  let ds := (Nat.toDigits 10 n)
  let sign := if d.isNegative then "-" else ""
  if 0 ≤ e then
    sign ++ String.ofList (ds ++ List.replicate (if n = 0 then 0 else e.toNat) '0') ++ ".0"
  else
    let places := e.natAbs
    let padded := List.replicate (places + 1 - ds.length) '0' ++ ds
    let whole := padded.take (padded.length - places)
    let fractional := padded.drop (padded.length - places)
    sign ++ String.ofList whole ++ "." ++ String.ofList fractional

/-- The text of a double in a message. -/
def text (d : Double) : String :=
  if d.isFinite then d.positional
  else if d.fraction ≠ 0 then "NaN"
  else if d.isNegative then "-inf"
  else "inf"

end Double

end SourceOutline
