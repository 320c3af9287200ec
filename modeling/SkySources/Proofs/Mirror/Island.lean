import Mathlib
import SkySources.Fit
import SkySources.Proofs.Island.Found
import SkySources.Proofs.Mirror.Marks

/-!
# Islands and fits of a negated image

A census of negated pixels of the other sign counts the same pixels, so their
island is the same but for its sign and its extremum. What is fitted to it is
turned over by its sign, so a minimiser is given the same problem, and its answer
is turned back by the same sign.

What is proved, with `mirror` for the result on the negated image:
  1. `add_mirror`, `ofPixels_mirror`: one more pixel, and by induction all pixels
     of a label;
  2. `ofMarks_mirror`: all islands of mirrored marks;
  3. `select_mirror`, `initialGuess_mirror`: the problem of a fit is the same;
  4. `ofIsland_mirror`: so the fit is the same but for its sign and amplitude.
-/

namespace SkySources

open Exact

/-- The fit turned over. -/
noncomputable def GaussianFit.mirror (f : GaussianFit Exact) : GaussianFit Exact :=
  { f with gaussian := { f.gaussian with amplitude := -f.gaussian.amplitude }, sign := -f.sign }

/-- The island on the other side of the background. -/
noncomputable def Island.mirror (i : Island Exact) : Island Exact :=
  { i with sign := -i.sign, extremum := -i.extremum, fit := i.fit.map GaussianFit.mirror }

theorem Island.keepLarge_mirror (minArea : Int) (islands : List (Island Exact)) :
    keepLarge minArea (islands.map mirror) = (keepLarge minArea islands).map mirror := by
  rw [keepLarge, List.filter_map]
  rfl

/-- The islands on the other side, with the same labels. -/
noncomputable def IslandMap.mirror {rows cols : Nat} (m : IslandMap rows cols Exact) :
    IslandMap rows cols Exact :=
  { m with islands := m.islands.map Island.mirror }

/-! ## Censuses -/

namespace Census

/-- The census of negated pixels of the other sign. -/
noncomputable def mirror (c : Census Exact) : Census Exact :=
  { c with sign := -c.sign, extremum := -c.extremum }

variable (c : Census Exact) (background : Exact) (row col : Nat) (value : Exact) (sign : Int)

theorem opened_mirror : c.mirror.opened row col = (c.opened row col).mirror := by
  unfold opened
  change (if c.count = 0 then _ else _) = _
  split <;> rfl

theorem raised_mirror :
    c.mirror.raised row col (-value) (-sign) = (c.raised row col value sign).mirror := by
  -- sign and value both change, so what stands out more still does
  have hcond : (c.mirror.count = 0 ∨
      Scalar.ofInt (-sign) * c.mirror.extremum < Scalar.ofInt (-sign) * -value) ↔
      (c.count = 0 ∨ Scalar.ofInt sign * c.extremum < Scalar.ofInt sign * value) := by
    have hextremum : c.mirror.extremum = -c.extremum := rfl
    rw [ofInt_neg, hextremum, neg_mul_neg, neg_mul_neg]
    exact Iff.rfl
  unfold raised
  by_cases h : c.count = 0 ∨ Scalar.ofInt sign * c.extremum < Scalar.ofInt sign * value
  · rw [if_pos h, if_pos (hcond.2 h), mirror, mirror]
  · rw [if_neg h, if_neg (mt hcond.1 h)]

theorem counted_mirror : c.mirror.counted (-background) row col (-value) (-sign) =
    (c.counted background row col value sign).mirror := by
  have hweight : Scalar.abs (-value - -background) = Scalar.abs (value - background) := by
    rw [sub_neg_eq_neg, abs_neg_eq]
  unfold counted
  simp only [hweight]
  rfl

theorem add_mirror : c.mirror.add (-background) row col (-value) (-sign) =
    (c.add background row col value sign).mirror := by
  rw [add, add, opened_mirror, raised_mirror, counted_mirror]

variable {rows cols : Nat} (data : Grid rows cols Exact) (signs : Grid rows cols Int)

theorem ofPixels_mirror (ps : List (Pixel rows cols)) :
    ofPixels (data.map Neg.neg) (signs.map Neg.neg) (-background) ps =
      (ofPixels data signs background ps).mirror := by
  induction ps using List.reverseRecOn with
  | nil =>
    change (empty rows cols : Census Exact) =
      { (empty rows cols : Census Exact) with sign := -0, extremum := -0.0 }
    rw [neg_zero_eq]
    rfl
  | append_singleton ps p ih =>
    rw [ofPixels_concat, ofPixels_concat, ih, Grid.get_map, Grid.get_map, add_mirror]

theorem island_mirror (label : Int) (barycentre : Bool) :
    c.mirror.island label barycentre = (c.island label barycentre).map Island.mirror := by
  unfold island
  change (BoundingBox.make c.minRow c.maxRow c.minCol c.maxCol >>= _) = _
  cases BoundingBox.make c.minRow c.maxRow c.minCol c.maxCol <;> rfl

end Census

/-! ## Islands -/

namespace IslandMap
variable {rows cols : Nat} {c : Connectivity} {data : Grid rows cols Exact}
  {marks : Grid rows cols Mark} {background : Exact} {barycentre : Bool}
  {m : IslandMap rows cols Exact}

theorem sides_mirror (marks : Grid rows cols Mark) :
    sides (marks.map Mark.mirror) = (sides marks).map Sign.mirror :=
  Grid.ext_get fun p => by simp [sides]

theorem hits_mirror (marks : Grid rows cols Mark) : hits (marks.map Mark.mirror) = hits marks :=
  Grid.ext_get fun p => by simp [hits]

/-- The islands of mirrored marks are the mirrored islands. -/
theorem ofMarks_mirror (h : ofMarks c data marks background barycentre = .ok m) :
    ofMarks c (data.map Neg.neg) (marks.map Mark.mirror) (-background) barycentre =
      .ok m.mirror := by
  obtain ⟨hislands, hlabels⟩ := ofMarks_eq_ok_iff.1 h
  have hsigns : (marks.map Mark.mirror).map (fun m => m.sign.toInt) =
      (marks.map fun m => m.sign.toInt).map Neg.neg := Grid.ext_get fun p => by simp
  rw [ofMarks_eq_ok_iff, sides_mirror, hits_mirror, Component.label_mirror, hsigns]
  refine ⟨?_, hlabels⟩
  have hmap := congrArg (List.map (Except.map Island.mirror)) hislands
  rw [List.map_map, List.map_map] at hmap
  simp only [census, Census.ofPixels_mirror, Census.island_mirror]
  rw [mirror, List.map_map]
  exact hmap

end IslandMap

/-! ## Fits -/

namespace Fit
variable {rows cols : Nat} {data : Grid rows cols Exact} {labels : Option (Grid rows cols Int)}
  {background : Exact} {island : Island Exact} {box : BoundingBox} {sign : Int}

theorem allAlike_neg (xs : List Exact) : allAlike (xs.map Neg.neg) = allAlike xs := by
  cases xs with
  | nil => rfl
  | cons first rest =>
    simp only [allAlike, List.map_cons, List.all_map]
    congr 1
    funext x
    exact sameValue_neg x first

/-- Turned over by their own sign, the pixels are the same. -/
theorem observations_mirror (pixels : List (Pixel rows cols)) :
    observations (data.map Neg.neg) (-sign) (-background) pixels =
      observations data sign background pixels := by
  have hvalue (v : Exact) : Scalar.ofInt (-sign) * (-v - -background) =
      Scalar.ofInt sign * (v - background) := by
    rw [ofInt_neg, sub_neg_eq_neg, neg_mul_neg]
  simp only [observations, Grid.get_map, hvalue]

/-- What is fitted to an island does not depend on its side. -/
theorem select_mirror : select (data.map Neg.neg) labels island.mirror (-background) box =
    select data labels island background box := by
  have husable : isUsable (data.map Neg.neg) labels island.label =
      isUsable data labels island.label := by
    funext p
    simp only [isUsable, Grid.get_map, isFinite_neg]
  have hmember : isMember (data.map Neg.neg) labels island.label =
      isMember data labels island.label := by
    funext p
    simp only [isMember, Grid.get_map, isFinite_neg]
  have hlabel : island.mirror.label = island.label := rfl
  have hsign : island.mirror.sign = -island.sign := rfl
  simp only [select, hlabel, hsign, husable, hmember, Grid.map_get_map, allAlike_neg,
     observations_mirror]

theorem initialGuess_mirror :
    initialGuess island.mirror (-background) = initialGuess island background := by
  have hamplitude : Scalar.abs (island.mirror.extremum - -background) =
      Scalar.abs (island.extremum - background) := by
    change Scalar.abs (-island.extremum - -background) = _
    rw [sub_neg_eq_neg, abs_neg_eq]
  rw [initialGuess, hamplitude]
  rfl

/-- The answer is turned back by the sign. -/
theorem accept_mirror (o : Outcome Exact) :
    accept box (-sign) o = (accept box sign o).map GaussianFit.mirror := by
  unfold accept
  split
  · rfl
  · split
    · rfl
    · split
      · rfl
      · simp only
        split
        · rfl
        · simp only [Except.map, GaussianFit.mirror, ofInt_neg, neg_mul]

theorem conclude_mirror (result : Except SearchFailure (Outcome Exact)) :
    conclude box (-sign) result = (conclude box sign result).map (Except.map GaussianFit.mirror) := by
  unfold conclude
  split
  · rfl
  · rfl
  · rw [accept_mirror]
    rfl

/-- The fit of an island on the other side is the same fit turned over. -/
theorem ofIsland_mirror (minimiser : Minimiser Exact) (d : Differencing) (margin : Int) :
    ofIsland minimiser d margin (data.map Neg.neg) labels (-background) island.mirror =
      (ofIsland minimiser d margin data labels background island).map
        (Except.map GaussianFit.mirror) := by
  have hbox : island.mirror.box = island.box := rfl
  rw [ofIsland, ofIsland, hbox]
  cases island.box.padded margin rows cols with
  | error inverted => rfl
  | ok box =>
    -- the minimiser is asked the same question
    simp only [ofRegion, select_mirror, initialGuess_mirror]
    cases select data labels island background box with
    | error failure => rfl
    | ok points => exact conclude_mirror _

end Fit
end SkySources
