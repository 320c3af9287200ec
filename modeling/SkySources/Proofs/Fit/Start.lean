import Mathlib
import SkySources.Proofs.Fit.Canonical
import SkySources.Proofs.Fit.Margin
import SkySources.Proofs.Fit.Problem
import SkySources.Proofs.Island.Found

/-!
# Where a fit begins

The search for a Gaussian begins over the extremum of the island, with axes that take the
extent of its box for the full width at half maximum, and half a pixel at least. What it ends
with is judged by the region, which is the box grown by a margin and clipped to the image. The
two agree: an axis of the beginning is no longer than the box, a box is no larger than its
region, and the extremum lies in the box. So a search that stays where it begins is accepted,
also when the box is higher than wide and the axes change places.

What is proved:
  1. `deviation_pos`, `deviation_le`: an axis of the beginning is positive and no longer than
     the extent that it is taken from;
  2. `initialGuess_exact`: over exact numbers the beginning has real parameters;
  3. `rejection?_exact_eq_none_iff`: when a Gaussian of real parameters is not rejected;
  4. `liesOver_begun`, `rejection?_begun`: the beginning lies over the box of the island, and its
     standard form is not rejected;
  5. `ofRegion_eq_conclude`: when a search takes place;
  6. `initialGuess_accepted`: all of it, for the islands of any marks on an image.
-/

namespace SkySources

open Exact

namespace Exact

theorem log_real {x : ℝ} (h : 0 < x) : Scalar.log (real x) = real (Real.log x) := by
  change (if x < 0 then missing else if x = 0 then infinite true else real (Real.log x)) = _
  rw [if_neg h.not_gt, if_neg h.ne']

theorem ten_eq : (10.0 : Exact) = real 10 := by
  rw [ofScientific_eq]
  norm_num

theorem sameValue_real (x y : ℝ) : Scalar.sameValue (real x) (real y) = true ↔ x = y := by
  simp only [Scalar.sameValue, Bool.and_eq_true, decide_eq_true_eq, le_real]
  exact le_antisymm_iff.symm

end Exact

namespace BoundingBox
variable {rows cols : Nat} {b padded : BoundingBox} {margin : Int}

/-- A box in an image only becomes larger. -/
theorem le_padded (hmargin : 0 ≤ margin) (hinside : b.Inside rows cols)
    (h : b.padded margin rows cols = .ok padded) :
    (padded.minRow ≤ b.minRow ∧ b.maxRow ≤ padded.maxRow) ∧
      padded.minCol ≤ b.minCol ∧ b.maxCol ≤ padded.maxCol := by
  obtain ⟨⟨hminRow, hmaxRow⟩, hminCol, hmaxCol⟩ := padded_eq_ok h
  obtain ⟨hrow, hrow', hcol, hcol'⟩ := hinside
  omega

end BoundingBox

namespace Fit

/-! ## The axes of the beginning -/

/-- The full width at half maximum of a Gaussian with unit deviation. -/
noncomputable def fullWidth : ℝ := (2 : ℕ) * √((2 : ℕ) * Real.log (2 : ℕ))

theorem widthAtHalf_real : (widthAtHalf : Exact) = real fullWidth := by
  have hlog : (0 : ℝ) ≤ 2 * Real.log 2 := mul_nonneg zero_le_two (Real.log_nonneg one_le_two)
  rw [widthAtHalf, two_eq, log_real two_pos, mul_real, sqrt_real hlog, mul_real, fullWidth,
    Nat.cast_ofNat]

/-- It is longer than a pixel. -/
theorem one_le_fullWidth : 1 ≤ fullWidth := by
  have hlog := Real.log_two_gt_d9
  have hsqrt : 1 ≤ √(2 * Real.log 2) := by
    rw [Real.one_le_sqrt]
    linarith
  rw [fullWidth, Nat.cast_ofNat]
  linarith

/-- The deviation of an axis that an extent of so many pixels suggests. -/
noncomputable def deviation (extent : Int) : ℝ := max (extent / fullWidth) (half 1)

theorem axisGuess_real (extent : Int) : (axisGuess extent : Exact) = real (deviation extent) := by
  have hwidth : fullWidth ≠ 0 := (zero_lt_one.trans_le one_le_fullWidth).ne'
  rw [axisGuess, widthAtHalf_real, ofInt_eq, div_real _ hwidth, half_eq, larger_real, deviation,
    half_def]

theorem deviation_pos (extent : Int) : 0 < deviation extent := by
  rw [deviation, half_def]
  exact lt_max_of_lt_right one_half_pos

theorem deviation_le {extent : Int} (h : 0 < extent) : deviation extent ≤ extent := by
  have hone : (1 : ℝ) ≤ extent := by exact_mod_cast h
  rw [deviation, half_def]
  apply max_le
  · exact div_le_self (zero_le_one.trans hone) one_le_fullWidth
  · linarith

/-! ## The beginning -/

/-- The parameters that a search begins with, for an extremum of some value. -/
noncomputable def begun (i : Island Exact) (value background : ℝ) : Gaussian ℝ :=
  { amplitude := |value - background|
    xCentre := i.column
    yCentre := i.row
    semimajor := deviation i.box.width
    semiminor := deviation i.box.height
    theta := 0 }

variable {i : Island Exact} {value background : ℝ}

theorem initialGuess_exact (h : i.extremum = real value) :
    initialGuess i (real background) = (begun i value background).exact := by
  simp only [initialGuess, h, sub_real, abs_real, ofInt_eq, axisGuess_real, zero_eq, begun,
    Gaussian.exact, Gaussian.map]

/-- A Gaussian over a box: it has a height and both axes, and its centre lies in the box. -/
structure LiesOver (g : Gaussian Exact) (box : BoundingBox) : Prop where
  amplitude : 0.0 < g.amplitude
  semimajor : 0.0 < g.semimajor
  semiminor : 0.0 < g.semiminor
  centre : box.contains g.yCentre g.xCentre = true

theorem liesOver_begun (hne : value ≠ background) (hcentre : i.box.Covers i.row i.column) :
    LiesOver (begun i value background).exact i.box where
  amplitude := by
    rw [zero_eq]
    exact abs_pos.2 (sub_ne_zero.2 hne)
  semimajor := by
    rw [zero_eq]
    exact deviation_pos _
  semiminor := by
    rw [zero_eq]
    exact deviation_pos _
  centre := hcentre

/-- The axes of the standard form are those of the beginning, the longer one first. -/
theorem standard_begun (i : Island Exact) (value background : ℝ) :
    (begun i value background).standard.semimajor =
        max (deviation i.box.width) (deviation i.box.height) ∧
      (begun i value background).standard.semiminor =
        min (deviation i.box.width) (deviation i.box.height) := by
  have hwidth : |(begun i value background).semimajor| = deviation i.box.width :=
    abs_of_pos (deviation_pos _)
  have hheight : |(begun i value background).semiminor| = deviation i.box.height :=
    abs_of_pos (deviation_pos _)
  rw [Gaussian.standard, hwidth, hheight]
  split
  · next hlt => exact ⟨(max_eq_right hlt.le).symm, (min_eq_left hlt.le).symm⟩
  · next hle => exact ⟨(max_eq_left (not_lt.1 hle)).symm, (min_eq_right (not_lt.1 hle)).symm⟩

/-! ## Whether it is rejected -/

/-- The length of the diagonal of a box. -/
noncomputable def diagonal (box : BoundingBox) : ℝ :=
  √((box.width : ℝ) ^ 2 + (box.height : ℝ) ^ 2)

theorem axisLimit_real (box : BoundingBox) :
    (axisLimit box : Exact) = real ((10 : ℕ) * diagonal box) := by
  have hsum : (0 : ℝ) ≤ (box.width : ℝ) ^ 2 + (box.height : ℝ) ^ 2 := by positivity
  rw [axisLimit, ofInt_eq, ofInt_eq, square_real, square_real, add_real, sqrt_real hsum, ten_eq,
    mul_real, diagonal, Nat.cast_ofNat]

theorem width_le_diagonal (box : BoundingBox) : (box.width : ℝ) ≤ diagonal box :=
  Real.le_sqrt_of_sq_le (le_add_of_nonneg_right (sq_nonneg _))

theorem height_le_diagonal (box : BoundingBox) : (box.height : ℝ) ≤ diagonal box :=
  Real.le_sqrt_of_sq_le (le_add_of_nonneg_left (sq_nonneg _))

theorem rejection?_exact_eq_none_iff {box : BoundingBox} {g : Gaussian ℝ} :
    rejection? box g.exact = none ↔ 0 < g.semiminor ∧ g.semimajor ≤ (10 : ℕ) * diagonal box ∧
      (((box.minCol - 1 : Int) ≤ g.xCentre ∧ g.xCentre ≤ (box.maxCol + 1 : Int)) ∧
        (box.minRow - 1 : Int) ≤ g.yCentre ∧ g.yCentre ≤ (box.maxRow + 1 : Int)) ∧
      0 < g.amplitude := by
  rw [rejection?_eq_none_iff, isNear_iff, axisLimit_real, zero_eq]
  simp only [Gaussian.exact, Gaussian.map, ofInt_eq, le_real, lt_real, not_le, not_lt]

variable {rows cols : Nat} {margin : Int} {box : BoundingBox}

/-- The standard form of the beginning is not rejected in a region around the box of the
island. -/
theorem rejection?_begun (hne : value ≠ background) (hmargin : 0 ≤ margin)
    (hinside : i.box.Inside rows cols) (hbox : i.box.padded margin rows cols = .ok box)
    (hcentre : i.box.Covers i.row i.column) :
    rejection? box (canonical (begun i value background).exact) = none := by
  obtain ⟨⟨hminRow, hmaxRow⟩, hminCol, hmaxCol⟩ := BoundingBox.le_padded hmargin hinside hbox
  rw [BoundingBox.covers_iff] at hcentre
  obtain ⟨hmajor, hminor⟩ := standard_begun i value background
  have hwidth : (i.box.width : ℝ) ≤ box.width := by
    rw [Int.cast_le, BoundingBox.width, BoundingBox.width]
    omega
  have hheight : (i.box.height : ℝ) ≤ box.height := by
    rw [Int.cast_le, BoundingBox.height, BoundingBox.height]
    omega
  -- an axis is no longer than the box, and the box no larger than the region
  have hlong : max (deviation i.box.width) (deviation i.box.height) ≤ diagonal box := by
    apply max_le
    · exact (deviation_le i.box.width_pos).trans (hwidth.trans (width_le_diagonal box))
    · exact (deviation_le i.box.height_pos).trans (hheight.trans (height_le_diagonal box))
  rw [Gaussian.canonical_exact, rejection?_exact_eq_none_iff, hmajor, hminor,
    Gaussian.standard_xCentre, Gaussian.standard_yCentre, Gaussian.standard_amplitude]
  refine ⟨lt_min (deviation_pos _) (deviation_pos _), ?_, ?_, abs_pos.2 (sub_ne_zero.2 hne)⟩
  · have hdiagonal : 0 ≤ diagonal box := Real.sqrt_nonneg _
    rw [Nat.cast_ofNat]
    linarith
  · simp only [begun, Int.cast_le]
    omega

/-- A search that ends with real parameters is accepted if their standard form is not
rejected. -/
theorem exists_accept {g : Gaussian ℝ} (h : rejection? box (canonical g.exact) = none)
    (sign : Int) (iterations : Nat) (cost : ℝ) (report : String) :
    ∃ fit, accept box sign ⟨g.exact.toList, true, iterations, real cost, report⟩ = .ok fit := by
  have hfinite : g.exact.isFinite = true := isFinite_iff_all.2 ⟨rfl, rfl, rfl, rfl, rfl, rfl⟩
  exact ⟨_, accept_eq_ok_iff.2 ⟨rfl, g.exact, rfl, hfinite, rfl, h, rfl⟩⟩

/-! ## Whether a search takes place -/

variable {data : Grid rows cols Exact} {labels : Option (Grid rows cols Int)}

/-- An island can be fitted: two of its pixels differ in value, and with those of no island
there are as many as parameters. -/
structure Fittable (data : Grid rows cols Exact) (labels : Option (Grid rows cols Int))
    (i : Island Exact) (margin : Int) : Prop where
  varied : ∃ p q, (i.box.IsNear margin p ∧ isMember data labels i.label p = true) ∧
    (i.box.IsNear margin q ∧ isMember data labels i.label q = true) ∧ data.get p ≠ data.get q
  enough : 6 ≤ {p | Scalar.isFinite (data.get p) = true ∧ Concerns labels i margin p}.ncard

/-- Finite values of which two differ are not all alike. -/
theorem allAlike_eq_false {xs : List Exact} (hfinite : ∀ x ∈ xs, Scalar.isFinite x = true)
    {a b : Exact} (ha : a ∈ xs) (hb : b ∈ xs) (hne : a ≠ b) : allAlike xs = false := by
  obtain ⟨ys, rfl⟩ := exists_map_real hfinite
  cases ys with
  | nil => cases ha
  | cons first rest =>
    -- otherwise both are the first value
    by_contra halike
    rw [Bool.not_eq_false, List.map_cons, allAlike, List.all_eq_true] at halike
    have hfirst {x : Exact} (hx : x ∈ (first :: rest).map real) : x = real first := by
      rw [List.map_cons, List.mem_cons] at hx
      rcases hx with hx | hx
      · exact hx
      · obtain ⟨y, -, rfl⟩ := List.mem_map.1 hx
        rw [(sameValue_real y first).1 (halike _ hx)]
    exact hne ((hfirst ha).trans (hfirst hb).symm)

theorem length_partaking (data : Grid rows cols Exact) (labels : Option (Grid rows cols Int))
    (i : Island Exact) (hbox : i.box.padded margin rows cols = .ok box) :
    (partaking data labels i.label box).length =
      {p | Scalar.isFinite (data.get p) = true ∧ Concerns labels i margin p}.ncard := by
  have hnodup : (partaking data labels i.label box).Nodup :=
    (partaking_pairwise data labels i.label box).imp fun hlt heq => hlt.ne (congrArg _ heq)
  rw [← List.toFinset_card_of_nodup hnodup, ← Set.ncard_coe_finset]
  congr 1
  ext p
  rw [List.coe_toFinset, Set.mem_ofPred_eq, mem_partaking, BoundingBox.holds_padded hbox,
    isUsable_iff, Set.mem_ofPred_eq, Concerns, and_left_comm]

/-- An island that can be fitted is. -/
theorem ofRegion_eq_conclude (hbox : i.box.padded margin rows cols = .ok box)
    (h : Fittable data labels i margin) (minimiser : Minimiser Exact) (d : Differencing) :
    ofRegion minimiser d data labels i (real background) box =
      conclude box i.sign (minimiser
        (Residuals.ofObservations d (observations data i.sign (real background)
          (partaking data labels i.label box)))
        (initialGuess i (real background)).toList) := by
  obtain ⟨p, q, ⟨hp, hpmember⟩, ⟨hq, hqmember⟩, hne⟩ := h.varied
  let members := (partaking data labels i.label box).filter (isMember data labels i.label)
  have hmem {r : Pixel rows cols} (hr : i.box.IsNear margin r)
      (hmember : isMember data labels i.label r = true) : data.get r ∈ members.map data.get := by
    apply List.mem_map_of_mem
    rw [List.mem_filter, mem_partaking, BoundingBox.holds_padded hbox]
    exact ⟨⟨hr, isUsable_of_isMember hmember⟩, hmember⟩
  have hfinite : ∀ x ∈ members.map data.get, Scalar.isFinite x = true := by
    intro x hx
    obtain ⟨r, hr, rfl⟩ := List.mem_map.1 hx
    exact (isMember_iff.1 (List.of_mem_filter hr)).1
  have hvaried := allAlike_eq_false hfinite (hmem hp hpmember) (hmem hq hqmember) hne
  have henough : ¬(partaking data labels i.label box).length < 6 := by
    rw [length_partaking data labels i hbox]
    exact not_lt.2 h.enough
  rw [ofRegion_eq]
  simp only [members] at hvaried
  simp only [hvaried, Bool.false_eq_true, if_false, if_neg henough]

/-! ## Islands -/

theorem inside_box {c : Connectivity} {marks : Grid rows cols Mark} {level : Exact}
    {barycentre : Bool} {m : IslandMap rows cols Exact}
    (hm : IslandMap.ofMarks c data marks level barycentre = .ok m) (hi : i ∈ m.islands) :
    i.box.Inside rows cols := by
  obtain ⟨⟨hminRow, hmaxRow⟩, hminCol, hmaxCol⟩ := (IslandMap.describes hm hi).inside
  exact ⟨hminRow, hmaxRow, hminCol, hmaxCol⟩

/-- The extremum of an island lies in its box. -/
theorem covers_extremum {c : Connectivity} {marks : Grid rows cols Mark} {level : Exact}
    {barycentre : Bool} {m : IslandMap rows cols Exact}
    (hm : IslandMap.ofMarks c data marks level barycentre = .ok m) (hi : i ∈ m.islands) :
    i.box.Covers i.row i.column := by
  obtain ⟨p, -, hholds, -, hrow, hcol⟩ := IslandMap.exists_peak hm hi
  rw [hrow, hcol]
  exact BoundingBox.holds_iff_covers.1 hholds

/-- If an island can be fitted and the search stays where it begins, the fit is accepted. -/
theorem exists_fit (hvalue : i.extremum = real value) (hne : value ≠ background)
    (hmargin : 0 ≤ margin) (hinside : i.box.Inside rows cols)
    (hcentre : i.box.Covers i.row i.column) (hbox : i.box.padded margin rows cols = .ok box)
    (hfittable : Fittable data labels i margin) {minimiser : Minimiser Exact} {d : Differencing}
    {iterations : Nat} {cost : ℝ} {report : String}
    (hstays : minimiser (Residuals.ofObservations d (observations data i.sign (real background)
        (partaking data labels i.label box))) (initialGuess i (real background)).toList =
      .ok ⟨(initialGuess i (real background)).toList, true, iterations, real cost, report⟩) :
    ∃ fit, ofIsland minimiser d margin data labels (real background) i = .ok (.ok fit) := by
  have haccepted := rejection?_begun hne hmargin hinside hbox hcentre
  obtain ⟨fit, hfit⟩ := exists_accept haccepted i.sign iterations cost report
  rw [ofIsland, hbox]
  simp only
  rw [ofRegion_eq_conclude hbox hfittable, hstays, initialGuess_exact hvalue, conclude, hfit]
  exact ⟨fit, rfl⟩

/-- The search for the fit of an island, of any marks on an image and over or under any
background, begins with a Gaussian over its box, of which the standard form is not rejected
whatever the margin. So if the island can be fitted and the search stays there, the fit is
accepted. -/
theorem initialGuess_accepted (c : Connectivity) (data : Grid rows cols Exact)
    (marks : Grid rows cols Mark) (level : Exact) (barycentre : Bool) :
    ∃ m, IslandMap.ofMarks c data marks level barycentre = .ok m ∧
      ∀ i ∈ m.islands, ∀ value background : ℝ, i.extremum = real value →
        0 < i.sign * (value - background) → ∀ margin : Int, 0 ≤ margin →
          LiesOver (initialGuess i (real background)) i.box ∧
          ∃ box, i.box.padded margin rows cols = .ok box ∧
            rejection? box (canonical (initialGuess i (real background))) = none ∧
            ∀ labels, Fittable data labels i margin →
              ∀ (minimiser : Minimiser Exact) (d : Differencing) (iterations : Nat) (cost : ℝ)
                (report : String),
                minimiser (Residuals.ofObservations d (observations data i.sign (real background)
                    (partaking data labels i.label box)))
                  (initialGuess i (real background)).toList =
                    .ok ⟨(initialGuess i (real background)).toList, true, iterations, real cost,
                      report⟩ →
                ∃ fit, ofIsland minimiser d margin data labels (real background) i =
                  .ok (.ok fit) := by
  obtain ⟨m, hm⟩ := IslandMap.exists_ofMarks c data marks level barycentre
  refine ⟨m, hm, fun i hi value background hvalue hside margin hmargin => ?_⟩
  have hne : value ≠ background := by
    rintro rfl
    rw [sub_self, mul_zero] at hside
    exact lt_irrefl 0 hside
  have hcentre := covers_extremum hm hi
  have hinside := inside_box hm hi
  obtain ⟨box, hbox⟩ := exists_padded hmargin hinside
  have haccepted := rejection?_begun hne hmargin hinside hbox hcentre
  refine ⟨?_, box, hbox, ?_, fun labels hfittable minimiser d iterations cost report hstays =>
    exists_fit hvalue hne hmargin hinside hcentre hbox hfittable hstays⟩
  · rw [initialGuess_exact hvalue]
    exact liesOver_begun hne hcentre
  · rw [initialGuess_exact hvalue]
    exact haccepted

/-- An image that is one pixel wide, and brighter from row to row. -/
def ramp : Grid 6 1 Exact := Grid.ofFn fun p => real (p.row.val + 1 : ℕ)

def rampMarks : Grid 6 1 Mark := Grid.ofFn fun _ => ⟨.above, true⟩

/-- A minimiser that stays where it begins. -/
def staying : Minimiser Exact := fun _ start => .ok ⟨start, true, 0, real 0, ""⟩

/-- Every pixel of the image is near every box in it. -/
theorem isNear_ramp {b : BoundingBox} (h : b.Inside 6 1) (p : Pixel 6 1) : b.IsNear 6 p := by
  obtain ⟨hminRow, hmaxRow, hminCol, hmaxCol⟩ := h
  have hrows := b.rows_le
  have hcols := b.cols_le
  have hrow := p.row.isLt
  have hcol := p.col.isLt
  unfold BoundingBox.IsNear
  omega

theorem fittable_ramp {i : Island Exact} (h : i.box.Inside 6 1) : Fittable ramp none i 6 where
  varied := by
    refine ⟨⟨0, 0⟩, ⟨1, 0⟩, ⟨isNear_ramp h _, rfl⟩, ⟨isNear_ramp h _, rfl⟩, ?_⟩
    rw [ramp, Grid.get_ofFn, Grid.get_ofFn, ne_eq, real.injEq, Nat.cast_inj]
    decide
  enough := by
    have hall : {p | Scalar.isFinite (ramp.get p) = true ∧ Concerns none i 6 p} = Set.univ := by
      refine Set.eq_univ_of_forall fun p => ⟨?_, isNear_ramp h p, fun map hmap => ?_⟩
      · rw [ramp, Grid.get_ofFn, isFinite_real]
      · cases hmap
    rw [hall, Set.ncard_univ, Nat.card_eq_fintype_card, Pixel.card_eq]

/-- The island of the image is six times as high as wide, and a search that stays where it
begins is accepted. -/
theorem initialGuess_accepted_ramp :
    ∃ m, IslandMap.ofMarks .edges ramp rampMarks (real 0) true = .ok m ∧ m.islands ≠ [] ∧
      ∀ i ∈ m.islands, Fittable ramp none i 6 ∧
        ∃ box fit, i.box.padded 6 6 1 = .ok box ∧
          rejection? box (canonical (initialGuess i (real 0))) = none ∧
          ofIsland staying .analytic 6 ramp none (real 0) i = .ok (.ok fit) := by
  obtain ⟨m, hm, hall⟩ := initialGuess_accepted .edges ramp rampMarks (real 0) true
  have hside (p : Pixel 6 1) : (IslandMap.sides rampMarks).get p = .above := by
    rw [IslandMap.sides, Grid.get_map, rampMarks, Grid.get_ofFn]
  have hne : m.islands ≠ [] := by
    have hmarked : (IslandMap.sides rampMarks).get ⟨0, 0⟩ ≠ .background := by
      rw [hside]
      decide
    have hit : (IslandMap.hits rampMarks).get ⟨0, 0⟩ = true := by
      rw [IslandMap.hits, Grid.get_map, rampMarks, Grid.get_ofFn]
    have hlabel := ((IslandMap.numbered hm).labelled ⟨0, 0⟩).2
      ⟨hmarked, ⟨0, 0⟩, .refl _ hmarked, hit⟩
    obtain ⟨i, hi, -⟩ := (IslandMap.exists_label_iff hm).2 ⟨hlabel, ⟨0, 0⟩, rfl⟩
    exact List.ne_nil_of_mem hi
  refine ⟨m, hm, hne, fun i hi => ?_⟩
  have hinside := inside_box hm hi
  obtain ⟨p, hp, -, hvalue, -⟩ := IslandMap.exists_peak hm hi
  rw [ramp, Grid.get_ofFn] at hvalue
  have habove : (0 : ℝ) < i.sign * ((p.row.val + 1 : ℕ) - 0) := by
    rw [← (IslandMap.describes hm hi).sign_eq p hp, hside]
    simp only [Sign.toInt, Int.cast_one, one_mul, sub_zero]
    positivity
  obtain ⟨-, box, hbox, hreject, hfits⟩ := hall i hi _ 0 hvalue habove 6 (by decide)
  obtain ⟨fit, hfit⟩ := hfits none (fittable_ramp hinside) staying .analytic 0 0 "" rfl
  exact ⟨fittable_ramp hinside, box, fit, hbox, hreject, hfit⟩

end Fit
end SkySources
