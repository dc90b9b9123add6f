/-!
# Ranges of Whole Numbers

The numbers from a first one up to, or down to, a last one, by steps. Bounds and steps are machine
words, and so is the number of numbers: where it does not fit it wraps around, and a range that is
said to have fewer than none has none.

## Main definitions

* `Script.Range` — a range;
* `Range.ofBounds`, `Range.slice` — from bounds, and a part of another;
* `Range.get`, `Range.toList`, `Range.contains` — its numbers.
-/

namespace MovAsm.Script

/-- Numbers at a distance of `step`, which is not zero, from `start` to before `stop`. The `length`
is the number of them. -/
structure Range where
  start : Int64
  stop : Int64
  step : Int64
  length : Int64
  deriving DecidableEq, Repr

namespace Range

/-- How many numbers there are between bounds, by steps: the `length` of the range. -/
def count (start stop step : Int64) : Int64 :=
  if 0 < step then
    if start < stop then (stop - 1 - start) / step + 1 else 0
  else if stop < start then (start - 1 - stop) / (-step) + 1 else 0

/-- The `Range` with these bounds. -/
def ofBounds (start stop step : Int64) : Range :=
  ⟨start, stop, step, count start stop step⟩

/-- The number at a `place`. -/
def get (range : Range) (place : Int64) : Int64 :=
  range.start + place * range.step

/-- All numbers of a `Range`. -/
def toList (range : Range) : List Int64 :=
  (List.range range.length.toInt.toNat).map fun n => range.get (Int64.ofNat n)

/-- Whether `n` is among the numbers. -/
def contains (range : Range) (n : Int64) : Bool :=
  let distance := n - range.start
  let place := distance / range.step
  distance % range.step = 0 && 0 ≤ place && place < range.length

/-- Whether two ranges have the same numbers. -/
def sameNumbers (x y : Range) : Bool :=
  x.length = y.length &&
    (x.length = 0 || (x.start = y.start && (x.length = 1 || x.step = y.step)))

/-- The numbers at the places from `first` to before `last`, by steps. -/
def slice (range : Range) (first last step : Int64) : Range :=
  ofBounds (range.start + range.step * first) (range.start + range.step * last)
    (range.step * step)

end Range

end MovAsm.Script
