import SkySources.Sum

/-!
# Mean and deviation

The mean of a list and the standard deviation of the whole list around it, for
a given way of adding up. A missing mean is the mean of nothing; the deviation
of nothing is zero.
-/

namespace SkySources.Moments
variable {α : Type} [Scalar α]

/-- The mean: the total, shared out evenly. -/
def mean (total : List α → α) (xs : List α) : α := total xs / Scalar.ofNat xs.length

/-- The standard deviation: the root of the mean squared distance from the mean. -/
def deviation (total : List α → α) (xs : List α) : α :=
  if xs.isEmpty then 0.0
  else
    let centre := mean total xs
    Scalar.sqrt (mean total (xs.map fun x => Scalar.square (x - centre)))

end SkySources.Moments
