import SkySources.Moments

/-!
# Medians

Three ways to name the middle of a list. `exact` sorts it: the middle entry, or
the mean of the two middle ones. `binned` counts the entries in bins between
one deviation below and one above the mean, and takes the centre of the bin
with the middle entry; a median is never further from the mean than one
deviation, so no other bins are needed. The third way takes zero.
-/

namespace SkySources.Median
variable {α : Type} [Scalar α]

/-- How a median is found. -/
inductive Method where
  | exact
  | binapprox
  | zero
  deriving DecidableEq, Repr

namespace Method

/-- Every method. -/
def all : List Method := [.exact, .binapprox, .zero]

/-- The name of a method. -/
def name : Method → String
  | exact => "exact"
  | binapprox => "binapprox"
  | zero => "zero"

/-- The method of a name. -/
def ofName? (text : String) : Option Method := all.find? fun m => m.name = text

end Method

/-- The list in ascending order. -/
def ascending (xs : List α) : List α := xs.mergeSort fun x y => decide (x ≤ y)

/-- The middle of an ascending list, between its two middle entries if their
number is even; missing if there are none. -/
def middle (xs : List α) : α :=
  match xs[(xs.length - 1) / 2]?, xs[xs.length / 2]? with
  | some low, some high => if xs.length % 2 = 1 then low else (low + high) / 2.0
  | _, _ => Scalar.missing

/-- The middle of a list; missing as soon as one of the entries is. -/
def exact (xs : List α) : α :=
  if xs.all Scalar.isNumber then middle (ascending xs) else Scalar.missing

/-- Bins of equal width, counted upwards from a lower bound. -/
structure Bins (α : Type) where
  /-- Where the first bin begins. -/
  lower : α
  /-- How many bins there are to a unit. -/
  scale : α
  /-- How many bins there are. -/
  count : Nat

namespace Bins

/-- The bins that span one deviation on either side of a mean. -/
def spanning (mean deviation : α) (count : Nat) : Bins α :=
  ⟨mean - deviation, Scalar.ofNat count / (2.0 * deviation), count⟩

/-- The values that lie below every bin. -/
def below (b : Bins α) (xs : List α) : List α := xs.filter fun x => decide (x < b.lower)

/-- The bin of a value that does not lie below every bin; it may lie above. -/
def slot (b : Bins α) (x : α) : Nat := (Scalar.truncate ((x - b.lower) * b.scale)).toNat

/-- How many values fall into each bin; those above every bin are not counted. -/
def counts (b : Bins α) (xs : List α) : List Nat :=
  (xs.foldl (fun counts x => if x < b.lower then counts else counts.modify (b.slot x) (· + 1))
    (Array.replicate b.count 0)).toList

/-- The first bin with at least so many values below or in it, for the counts from
some bin on and the number of values before it. -/
def reaching? (rank before : Nat) : (bin : Nat) → (counts : List Nat) → Option Nat
  | _, [] => none
  | bin, n :: rest =>
    if rank ≤ before + n then some bin else reaching? rank (before + n) (bin + 1) rest

/-- The first bin with at least so many values below or in it, where values
below every bin count as well. -/
def ranked? (b : Bins α) (rank : Nat) (xs : List α) : Option Nat :=
  reaching? rank (b.below xs).length 0 (b.counts xs)

/-- The middle of a bin. -/
def centre (b : Bins α) (i : Nat) : α := b.lower + (Scalar.ofNat i + 0.5) / b.scale

end Bins

/-- The rank of the lower middle entry of so many. -/
def middleRank (n : Nat) : Nat := (n + 1) / 2

/-- The centre of the bin of the middle entry. A list without deviation has its
mean for a median; if rounding leaves no bin, the upper end of the bins is taken. -/
def binned (count : Nat) (xs : List α) : α :=
  let mean := Moments.mean Sum.running xs
  let deviation := Moments.deviation Sum.running xs
  if Scalar.sameValue deviation 0.0 then mean
  else
    let bins := Bins.spanning mean deviation count
    match bins.ranked? (middleRank xs.length) xs with
    | some i => bins.centre i
    | none => mean + deviation

/-- The median of a list by a method; only the binned one looks at the number
of bins. -/
def of (method : Method) (count : Nat) (xs : List α) : α :=
  match method with
  | .exact => exact xs
  | .binapprox => binned count xs
  | .zero => 0.0

/-- Why there is no median. -/
inductive Fault where
  /-- No method has the name. -/
  | unknownMethod
  /-- There are no values to put into bins. -/
  | noValues
  /-- The number of bins is negative. -/
  | negativeBins
  deriving DecidableEq, Repr

/-- The fault of putting values into bins: without a deviation the bins are not
looked at. -/
def binFault (count : Int) (xs : List α) : Option Fault :=
  if xs.isEmpty then some .noValues
  else if count < 0 ∧ !Scalar.sameValue (Moments.deviation Sum.running xs) 0.0 then
    some .negativeBins
  else none

/-- The binned median for any number of bins. -/
def binned? (count : Int) (xs : List α) : Except Fault α :=
  match binFault count xs with
  | some fault => .error fault
  | none => .ok (binned count.toNat xs)

/-- The median by the method of a name, for any number of bins. -/
def named? (method : String) (count : Int) (xs : List α) : Except Fault α :=
  match Method.ofName? method with
  | none => .error .unknownMethod
  | some .binapprox => binned? count xs
  | some m => .ok (of m count.toNat xs)

end SkySources.Median
