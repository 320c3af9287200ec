import SkySources.Median

/-!
# The background of an image

The level and the noise of an image are estimated from its finite values, from
which outliers are cut away round by round: a round keeps the values within a
multiple of the deviation from the median. It ends when nothing is cut, when
the budget of rounds is spent, or when a cut would leave too few values or
values that are all alike; such a cut is not made, and the estimate of the
round before is marked as unreliable.

Every estimate belongs to one list of kept values: `Sample` holds the values
together with their own mean, deviation and median.
-/

namespace SkySources.Background
variable {α : Type} [Scalar α]

/-- How outliers are cut away. -/
structure Clipping (α : Type) where
  /-- Values further than so many deviations from the median are cut. -/
  numSigma : α
  /-- The most rounds that are made. -/
  rounds : Nat
  /-- How the median is found. -/
  method : Median.Method
  /-- The number of bins of a binned median. -/
  bins : Nat
  /-- The fewest values that make an estimate. -/
  minCount : Int

/-- Values with their mean, deviation and median. -/
structure Sample (α : Type) where
  values : List α
  mean : α
  sigma : α
  median : α

namespace Sample

/-- The sample of some values. -/
def of (c : Clipping α) (xs : List α) : Sample α :=
  { values := xs
    mean := Moments.mean Sum.pairwise xs
    sigma := Moments.deviation Sum.pairwise xs
    median := Median.of c.method c.bins xs }

/-- The number of values. -/
def count (s : Sample α) : Nat := s.values.length

/-- The values within a distance of the median. -/
def within (s : Sample α) (limit : α) : List α :=
  s.values.filter fun x => decide (Scalar.abs (x - s.median) ≤ limit)

/-- The deviation is nothing beside the mean. -/
def isFlat (s : Sample α) : Bool :=
  decide (s.sigma ≤ 1e-12 * Scalar.larger (Scalar.abs s.mean) 1.0)

/-- There are fewer values than make an estimate. -/
def isSmall (c : Clipping α) (s : Sample α) : Bool := decide (Int.ofNat s.count < c.minCount)

end Sample

/-- How the rounds ended. -/
inductive Ending where
  /-- Nothing was left to cut. -/
  | settled
  /-- The budget was spent. -/
  | exhausted
  /-- A cut would have left too few values, or values all alike. -/
  | collapsed (left : Nat)
  deriving DecidableEq, Repr

/-- What the rounds lead to. -/
structure Clipped (α : Type) where
  /-- The values that are left, with their estimate. -/
  sample : Sample α
  /-- The number of cuts that were made. -/
  cuts : Nat
  ending : Ending

/-- The rounds from a sample on. -/
def clip (c : Clipping α) : Nat → Sample α → Clipped α
  | 0, s => ⟨s, 0, .exhausted⟩
  | budget + 1, s =>
    let kept := s.within (c.numSigma * s.sigma)
    if kept.length = s.count then ⟨s, 0, .settled⟩
    else
      let next := Sample.of c kept
      if next.isSmall c || next.isFlat then ⟨s, 0, .collapsed next.count⟩
      else
        let rest := clip c budget next
        { rest with cuts := rest.cuts + 1 }

end Background

/-- An estimate of the level and the noise of an image. -/
structure Background (α : Type) where
  /-- The mean of the kept values. -/
  mean : α
  /-- Their standard deviation. -/
  sigma : α
  /-- Their median. -/
  median : α
  /-- Whether the deviation can be relied on. -/
  reliable : Bool
  /-- How many values were kept. -/
  count : Nat
  /-- The number of rounds that were made. -/
  rounds : Nat

namespace Background
variable {α : Type} [Scalar α]

/-- The estimate of a sample after some rounds. -/
def ofSample (s : Sample α) (reliable : Bool) (rounds : Nat) : Background α :=
  ⟨s.mean, s.sigma, s.median, reliable, s.count, rounds⟩

/-- The estimate at the end of the rounds; a cut that was not made counts as a
round. -/
def ofClipped (r : Clipped α) : Background α :=
  match r.ending with
  | .collapsed _ => ofSample r.sample false (r.cuts + 1)
  | _ => ofSample r.sample true r.cuts

/-- A round that was given up: the values it would have left, and its number. -/
structure Collapse where
  (left round : Nat)
  deriving DecidableEq, Repr

/-- An estimate with the values it rests on and the round that was given up. -/
structure Report (α : Type) where
  background : Background α
  kept : List α
  collapse : Option Collapse

/-- The report of the rounds. -/
def Report.ofClipped (r : Clipped α) : Report α :=
  { background := Background.ofClipped r
    kept := r.sample.values
    collapse := match r.ending with
      | .collapsed left => some ⟨left, r.cuts + 1⟩
      | _ => none }

/-- The report of a sample that is not clipped. -/
def Report.unclipped (s : Sample α) (sigma : α) : Report α :=
  ⟨ofSample { s with sigma := sigma } false 0, s.values, none⟩

/-- The values that carry information. -/
def finite (data : List α) : List α := data.filter Scalar.isFinite

/-- The estimate from a list of values, in any order, with its report. Without
a finite value the level is zero; too few of them have no deviation, and values
all alike are not clipped. -/
def report (c : Clipping α) (data : List α) : Report α :=
  let xs := finite data
  if xs.isEmpty then ⟨⟨0.0, Scalar.missing, 0.0, false, 0, 0⟩, [], none⟩
  else
    let s := Sample.of c xs
    if s.isSmall c then .unclipped s Scalar.missing
    else if s.isFlat then .unclipped s s.sigma
    else .ofClipped (clip c c.rounds s)

/-- Whether a first round is made at all. -/
def clips (c : Clipping α) (data : List α) : Bool :=
  let s := Sample.of c (finite data)
  !(c.rounds == 0 || (finite data).isEmpty || s.isSmall c || s.isFlat)

/-- The fault of an estimate: the method must be known and the bins must hold
as soon as there is a value. -/
def fault (c : Clipping α) (bins : Int) (data : List α) : Option Median.Fault :=
  if (finite data).isEmpty || c.method ≠ .binapprox then none
  else (Median.binFault bins (finite data)).orElse fun _ =>
    if (report c data).kept.isEmpty then some .noValues else none

/-- The estimate for a method given by its name and any number of bins. -/
def named? (c : Clipping α) (method : String) (bins : Int) (data : List α) :
    Except Median.Fault (Report α) :=
  match Median.Method.ofName? method with
  | some m =>
    let c := { c with method := m, bins := bins.toNat }
    match fault c bins data with
    | some f => .error f
    | none => .ok (report c data)
  | none => if (finite data).isEmpty then .ok (report c data) else .error .unknownMethod

end Background
end SkySources
