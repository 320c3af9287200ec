import Mathlib
import SkySources.Proofs.Clipping.Rounds
import SkySources.Proofs.Exact
import SkySources.Proofs.Mirror.Survey
import SkySources.Proofs.Survey.Agreement

/-!
# The barycentre of an island

A census adds up its weights and moments about the first of its pixels, and the barycentre is
moved back from there and kept in the bounding box. Over exact numbers none of this shows: the
barycentre is the mean of the coordinates of the pixels, weighed by their distances from the
background, and it lies in the box of itself. Rows and columns are treated alike, so what is
proved along one axis (`Axis`) holds along both.

What is proved:
  1. `ofPixels_weight`, `ofPixels_moment`: what a census of finite values adds up;
  2. `centre_eq`: so the centre along an axis is the weighted mean, clipped or not;
  3. `IslandMap.balances`: the barycentre of an island that is not all background;
  4. `Sighting.balances`: an island that a survey finds is nowhere at the background;
  5. `Island.barycentre_balances`: both together, with a single pixel as a special case.
-/

namespace SkySources

open Exact

namespace Exact

/-- The real number that a finite number is. -/
def toReal : Exact → ℝ
  | real x => x
  | _ => 0

theorem eq_real_toReal {a : Exact} (h : Scalar.isFinite a = true) : a = real a.toReal := by
  obtain ⟨x, rfl⟩ := exists_real h
  rfl

/-- A number in an interval stays where it is. -/
theorem clamp_real {low high x : ℝ} (h : x ∈ Set.Icc low high) :
    Scalar.clamp (real low) (real high) (real x) = real x := by
  have hlow : ¬real x < real low := mt (lt_real x low).1 (not_lt.2 h.1)
  have hhigh : ¬real high < real x := mt (lt_real high x).1 (not_lt.2 h.2)
  rw [Scalar.clamp, Scalar.larger, if_neg hlow, Scalar.smaller, if_neg hhigh]

/-- Only numbers that are finite differ by a finite number. -/
theorem exists_real_of_isFinite_sub {a b : Exact} (h : Scalar.isFinite (a - b) = true) :
    ∃ y, b = real y := by
  obtain ⟨x, rfl⟩ := exists_real (isFinite_of_isFinite_sub h)
  cases b with
  | real y => exact ⟨y, rfl⟩
  | infinite t => cases h
  | missing => cases h

/-- A distance that is not negative, or missing, is not below zero. -/
theorem IsNoise.not_lt_zero {a : Exact} (h : IsNoise a) : ¬a < 0.0 := by
  intro hlt
  rcases h with h | rfl
  · have hneg : 0.0 < -a := by
      rw [lt_neg_iff, neg_zero_eq]
      exact hlt
    exact not_lt_neg_of_nonneg h (lt_trans_eq hlt hneg)
  · rw [zero_eq] at hlt
    exact hlt

end Exact

variable {rows cols : Nat}

/-! ## Weights -/

/-- The weight of a pixel: the distance of its value from the background. -/
noncomputable def pixelWeight (data : Grid rows cols Exact) (background : ℝ)
    (p : Pixel rows cols) : ℝ :=
  |(data.get p).toReal - background|

/-- The mean of a quantity over some pixels, by their weights. -/
noncomputable def weightedMean (data : Grid rows cols Exact) (background : ℝ)
    (pixels : Finset (Pixel rows cols)) (x : Pixel rows cols → ℝ) : ℝ :=
  (∑ p ∈ pixels, pixelWeight data background p * x p) / ∑ p ∈ pixels, pixelWeight data background p

section Mean
variable {data : Grid rows cols Exact} {background : ℝ} {pixels : Finset (Pixel rows cols)}
  {x : Pixel rows cols → ℝ}

theorem pixelWeight_nonneg (p : Pixel rows cols) : 0 ≤ pixelWeight data background p := abs_nonneg _

theorem pixelWeight_pos {p : Pixel rows cols} (hfinite : Scalar.isFinite (data.get p) = true)
    (h : data.get p ≠ real background) : 0 < pixelWeight data background p := by
  refine abs_pos.2 (sub_ne_zero.2 fun heq => h ?_)
  rw [eq_real_toReal hfinite, heq]

theorem weightedMean_eq_centerMass :
    weightedMean data background pixels x = pixels.centerMass (pixelWeight data background) x := by
  simp only [weightedMean, Finset.centerMass, smul_eq_mul, div_eq_inv_mul]

variable (hpos : 0 < ∑ p ∈ pixels, pixelWeight data background p)
include hpos

/-- The mean lies where the quantity does. -/
theorem weightedMean_mem {low high : ℝ} (h : ∀ p ∈ pixels, x p ∈ Set.Icc low high) :
    weightedMean data background pixels x ∈ Set.Icc low high := by
  rw [weightedMean_eq_centerMass]
  exact (convex_Icc low high).centerMass_mem (fun p _ => pixelWeight_nonneg p) hpos h

/-- The mean does not depend on where the quantity is counted from. -/
theorem add_weightedMean_sub (a : ℝ) :
    a + weightedMean data background pixels (fun p => x p - a) =
      weightedMean data background pixels x := by
  simp only [weightedMean, mul_sub, Finset.sum_sub_distrib, ← Finset.sum_mul]
  field_simp
  ring

end Mean

namespace Grid

/-- The sum over the listed pixels is the sum over the pixels whose cell passes the test. -/
theorem sum_map_pixelsWhere {α : Type} (g : Grid rows cols α) (test : α → Bool)
    (f : Pixel rows cols → ℝ) :
    ((g.pixelsWhere test).map f).sum = ∑ p with test (g.get p) = true, f p := by
  have hnodup : (g.pixelsWhere test).Nodup := (Pixel.raster_nodup rows cols).filter _
  have hset : Finset.univ.filter (fun p => test (g.get p) = true) =
      (g.pixelsWhere test).toFinset := by
    ext p
    simp [mem_pixelsWhere]
  rw [hset, List.sum_toFinset f hnodup]

end Grid

/-! ## The sums of a census -/

namespace Census

/-- What a census keeps along one axis of the grid: its bounds, the first pixel, and the moment
about it. -/
structure Axis (rows cols : Nat) where
  position : Pixel rows cols → Nat
  (low high : Census Exact → Int)
  first : Census Exact → Nat
  moment : Census Exact → Exact
  low_isLeast : ∀ data signs background (ps : List (Pixel rows cols)), ps ≠ [] →
    IsLeast ((fun p => (position p : Int)) '' {p | p ∈ ps})
      (low (ofPixels data signs background ps))
  high_isGreatest : ∀ data signs background (ps : List (Pixel rows cols)), ps ≠ [] →
    IsGreatest ((fun p => (position p : Int)) '' {p | p ∈ ps})
      (high (ofPixels data signs background ps))
  moment_empty : moment (empty rows cols) = 0.0
  first_add : ∀ background c (p : Pixel rows cols) value sign,
    first (add background c p.row.val p.col.val value sign) =
      if c.count = 0 then position p else first c
  moment_add : ∀ background c (p : Pixel rows cols) value sign,
    moment (add background c p.row.val p.col.val value sign) =
      moment c + Scalar.abs (value - background) * Scalar.ofInt (Int.ofNat (position p) -
        Int.ofNat (first (add background c p.row.val p.col.val value sign)))

/-- The columns of a grid. -/
def columns (rows cols : Nat) : Axis rows cols where
  position p := p.col.val
  low := minCol
  high := maxCol
  first := firstCol
  moment := columnMoment
  low_isLeast data signs background _ := ofPixels_minCol data signs background
  high_isGreatest data signs background _ := ofPixels_maxCol data signs background
  moment_empty := rfl
  first_add background c p value sign := by
    simp only [add, counted, opened, raised]
    split <;> split <;> rfl
  moment_add background c p value sign := by
    simp only [add, counted, opened, raised]
    split <;> split <;> rfl

/-- The rows of a grid. -/
def lines (rows cols : Nat) : Axis rows cols where
  position p := p.row.val
  low := minRow
  high := maxRow
  first := firstRow
  moment := rowMoment
  low_isLeast data signs background _ := ofPixels_minRow data signs background
  high_isGreatest data signs background _ := ofPixels_maxRow data signs background
  moment_empty := rfl
  first_add background c p value sign := by
    simp only [add, counted, opened, raised]
    split <;> split <;> rfl
  moment_add background c p value sign := by
    simp only [add, counted, opened, raised]
    split <;> split <;> rfl

theorem add_weight (background : Exact) (c : Census Exact) (row col : Nat) (value : Exact)
    (sign : Int) : (add background c row col value sign).weight =
      c.weight + Scalar.abs (value - background) := by
  simp only [add, counted, opened, raised]
  split <;> split <;> rfl

variable {data : Grid rows cols Exact} {signs : Grid rows cols Int} {background : ℝ}
  {ps : List (Pixel rows cols)}

variable (background) in
/-- The weight that a census adds for a pixel. -/
theorem abs_sub_eq {p : Pixel rows cols} (h : Scalar.isFinite (data.get p) = true) :
    Scalar.abs (data.get p - real background) = real (pixelWeight data background p) := by
  rw [eq_real_toReal h, sub_real, abs_real]
  rfl

variable (hfinite : ∀ p ∈ ps, Scalar.isFinite (data.get p) = true)
include hfinite

theorem ofPixels_weight : (ofPixels data signs (real background) ps).weight =
    real (ps.map (pixelWeight data background)).sum := by
  induction ps using List.reverseRecOn with
  | nil => exact zero_eq
  | append_singleton ps p ih =>
    rw [ofPixels_concat, add_weight, ih fun q hq => hfinite q (List.mem_append_left _ hq),
      abs_sub_eq background (hfinite p (by simp)), add_real, List.map_append, List.sum_append,
      List.map_singleton, List.sum_singleton]

/-- The moment along an axis is taken about the first pixel. -/
theorem ofPixels_moment (a : Axis rows cols) :
    a.moment (ofPixels data signs (real background) ps) =
      real (ps.map fun p => pixelWeight data background p *
        ((a.position p : ℝ) - a.first (ofPixels data signs (real background) ps))).sum := by
  induction ps using List.reverseRecOn with
  | nil => exact a.moment_empty.trans zero_eq
  | append_singleton ps p ih =>
    have hterm := abs_sub_eq background (hfinite p (by simp))
    rw [ofPixels_concat, a.moment_add, a.first_add, hterm, ofInt_eq, mul_real,
      ih fun q hq => hfinite q (List.mem_append_left _ hq), ofPixels_count, add_real]
    rcases eq_or_ne ps [] with rfl | hne
    · -- the first pixel has no moment about itself
      simp
    · rw [if_neg (mt List.length_eq_zero_iff.1 hne), List.map_append, List.sum_append]
      simp

end Census

/-! ## The centre of a label -/

namespace IslandMap
variable {data : Grid rows cols Exact} {signs : Grid rows cols Int} {background : ℝ}
  {labels : Grid rows cols Nat} {k : Nat}

/-- The barycentre of some pixels along an axis, before it is kept in the box. -/
noncomputable def unclipped (a : Census.Axis rows cols) (c : Census Exact) : Exact :=
  Scalar.ofNat (a.first c) + a.moment c / c.weight

variable (hfinite : ∀ p, labels.get p = k → Scalar.isFinite (data.get p) = true)
  (hpos : 0 < ∑ p with labels.get p = k, pixelWeight data background p)
include hfinite

theorem isFinite_of_listed : ∀ p ∈ labels.pixelsWhere (fun label => label = k),
    Scalar.isFinite (data.get p) = true := fun p hp =>
  hfinite p (by simpa using Grid.mem_pixelsWhere.1 hp)

theorem census_weight : (census data signs (real background) labels k).weight =
    real (∑ p with labels.get p = k, pixelWeight data background p) := by
  rw [census, Census.ofPixels_weight (isFinite_of_listed hfinite), Grid.sum_map_pixelsWhere]
  simp only [decide_eq_true_eq]

theorem census_moment (a : Census.Axis rows cols) :
    a.moment (census data signs (real background) labels k) =
      real (∑ p with labels.get p = k, pixelWeight data background p *
        ((a.position p : ℝ) - a.first (census data signs (real background) labels k))) := by
  rw [census, Census.ofPixels_moment (isFinite_of_listed hfinite), Grid.sum_map_pixelsWhere]
  simp only [decide_eq_true_eq]

include hpos

theorem unclipped_eq (a : Census.Axis rows cols) :
    unclipped a (census data signs (real background) labels k) =
      real (weightedMean data background {p | labels.get p = k} fun p => a.position p) := by
  rw [unclipped, census_weight hfinite, census_moment hfinite, ofNat_eq, div_real _ hpos.ne',
    add_real]
  exact congrArg real (add_weightedMean_sub hpos _)

/-- The weighted mean lies in the box already. -/
theorem centre_eq (a : Census.Axis rows cols) :
    let c := census data signs (real background) labels k
    Census.centre c.weight (a.moment c) (a.first c) (a.low c) (a.high c) = unclipped a c := by
  intro c
  change Scalar.clamp (Scalar.ofInt (a.low c)) (Scalar.ofInt (a.high c)) (unclipped a c) = _
  rw [unclipped_eq hfinite hpos, ofInt_eq, ofInt_eq]
  refine clamp_real (weightedMean_mem hpos fun p hp => ?_)
  have hlisted : p ∈ labels.pixelsWhere fun label => label = k := by
    simpa [Grid.mem_pixelsWhere] using hp
  have himage : (a.position p : Int) ∈ (fun q => (a.position q : Int)) ''
      {q | q ∈ labels.pixelsWhere fun label => label = k} := ⟨p, hlisted, rfl⟩
  have hne := List.ne_nil_of_mem hlisted
  constructor
  · exact_mod_cast (a.low_isLeast data signs (real background) _ hne).2 himage
  · exact_mod_cast (a.high_isGreatest data signs (real background) _ hne).2 himage

end IslandMap

/-! ## The barycentre of an island -/

/-- The barycentre of an island is the mean position of some pixels, by their weights, not all
of which vanish. -/
structure Island.Balances (i : Island Exact) (data : Grid rows cols Exact) (background : ℝ)
    (pixels : Finset (Pixel rows cols)) : Prop where
  weight_pos : 0 < ∑ p ∈ pixels, pixelWeight data background p
  xbar_eq : i.xbar = real ((∑ p ∈ pixels, pixelWeight data background p * p.col.val) /
    ∑ p ∈ pixels, pixelWeight data background p)
  ybar_eq : i.ybar = real ((∑ p ∈ pixels, pixelWeight data background p * p.row.val) /
    ∑ p ∈ pixels, pixelWeight data background p)

/-- A single pixel is its own barycentre. -/
theorem Island.Balances.single {i : Island Exact} {data : Grid rows cols Exact} {background : ℝ}
    {p : Pixel rows cols} (h : i.Balances data background {p}) :
    i.xbar = real p.col.val ∧ i.ybar = real p.row.val := by
  have hpos := h.weight_pos
  have hx := h.xbar_eq
  have hy := h.ybar_eq
  simp only [Finset.sum_singleton] at hpos hx hy
  rw [hx, hy, mul_div_cancel_left₀ _ hpos.ne', mul_div_cancel_left₀ _ hpos.ne']
  exact ⟨rfl, rfl⟩

namespace IslandMap
variable {c : Connectivity} {data : Grid rows cols Exact} {marks : Grid rows cols Mark}
  {background : ℝ} {m : IslandMap rows cols Exact} {i : Island Exact}

/-- The pixels of an island. -/
def footprint (m : IslandMap rows cols Exact) (i : Island Exact) : Finset (Pixel rows cols) :=
  {p | (m.labels.get p : Int) = i.label}

theorem mem_footprint {p : Pixel rows cols} :
    p ∈ m.footprint i ↔ (m.labels.get p : Int) = i.label := by
  simp only [footprint, Finset.mem_filter, Finset.mem_univ, true_and]

/-- The census that an island comes from. -/
noncomputable def source (data : Grid rows cols Exact) (marks : Grid rows cols Mark)
    (background : ℝ) (m : IslandMap rows cols Exact) (i : Island Exact) : Census Exact :=
  census data (marks.map fun m => m.sign.toInt) (real background) m.labels i.label.toNat

/-- The barycentre of an island with a weight, as it is and before it was kept in the box. -/
theorem balances (h : ofMarks c data marks (real background) true = .ok m) (hi : i ∈ m.islands)
    (hfinite : ∀ p ∈ m.footprint i, Scalar.isFinite (data.get p) = true)
    (hdiffers : ∃ p ∈ m.footprint i, data.get p ≠ real background) :
    i.Balances data background (m.footprint i) ∧
      i.xbar = unclipped (Census.columns rows cols) (source data marks background m i) ∧
      i.ybar = unclipped (Census.lines rows cols) (source data marks background m i) := by
  obtain ⟨k, hk⟩ := List.getElem?_of_mem hi
  have hisland := getElem?_islands h hk
  have hlabel : i.label = (k : Int) + 1 := (Census.island_eq_ok hisland).1.1
  have hpixels : m.footprint i = Finset.univ.filter fun p => m.labels.get p = k + 1 := by
    ext p
    rw [mem_footprint, Finset.mem_filter_univ, hlabel]
    omega
  have hsource : source data marks background m i =
      census data (marks.map fun m => m.sign.toInt) (real background) m.labels (k + 1) := by
    rw [source, hlabel]
    rfl
  have hmem {p : Pixel rows cols} (hp : m.labels.get p = k + 1) : p ∈ m.footprint i := by
    rw [hpixels]
    simpa using hp
  have hfinite' (p : Pixel rows cols) (hp : m.labels.get p = k + 1) := hfinite p (hmem hp)
  have hpos : 0 < ∑ p ∈ m.footprint i, pixelWeight data background p := by
    obtain ⟨p, hp, hne⟩ := hdiffers
    exact Finset.sum_pos' (fun q _ => pixelWeight_nonneg q)
      ⟨p, hp, pixelWeight_pos (hfinite p hp) hne⟩
  rw [hpixels] at hpos ⊢
  obtain ⟨box, -, rfl⟩ := Census.island_eq_ok_iff.1 hisland
  -- the weight is positive, so the barycentre is known
  have hknown (a : Census.Axis rows cols) :
      let s := census data (marks.map fun m => m.sign.toInt) (real background) m.labels (k + 1)
      s.centred true (a.moment s) (a.first s) (a.low s) (a.high s) = unclipped a s := by
    intro s
    have hweight : 0.0 < s.weight := by
      rw [census_weight hfinite', zero_eq]
      exact hpos
    rw [Census.centred, Bool.true_and, if_pos (decide_eq_true hweight)]
    exact centre_eq hfinite' hpos a
  refine ⟨⟨hpos, ?_, ?_⟩, ?_, ?_⟩
  · exact (hknown (Census.columns rows cols)).trans (unclipped_eq hfinite' hpos _)
  · exact (hknown (Census.lines rows cols)).trans (unclipped_eq hfinite' hpos _)
  · rw [hsource]
    exact hknown (Census.columns rows cols)
  · rw [hsource]
    exact hknown (Census.lines rows cols)

end IslandMap

/-! ## The islands of a survey -/

namespace Threshold

/-- What is marked differs from the background, if the level is not negative. -/
theorem ne_mean_of_sign {t : Threshold Exact} (hlevel : IsNoise t.analysisLevel) {value : Exact}
    (h : (t.mark value).sign ≠ .background) : value ≠ t.mean := by
  rintro rfl
  obtain ⟨x, hx⟩ := exists_real_of_isFinite_sub (isFinite_of_sign h)
  have hzero : t.mean - t.mean = 0.0 := by rw [hx, sub_real, sub_self, zero_eq]
  -- a distance of zero exceeds no level, on either side
  have habove : ¬t.analysisLevel < t.mean - t.mean := by
    rw [hzero]
    exact hlevel.not_lt_zero
  have hbelow : ¬t.mean - t.mean < -t.analysisLevel := by
    rw [hzero, lt_neg_iff, neg_zero_eq]
    exact hlevel.not_lt_zero
  apply h
  simp only [mark, habove, hbelow, decide_false, Bool.and_false, Bool.false_eq_true, if_false]

end Threshold

namespace Sighting
variable {minimiser : Minimiser Exact} {plan : Plan Exact} {data : Grid rows cols Exact}
  {s : Sighting rows cols Exact} {i : Island Exact}

/-- An island that is found is nowhere at the level of the background. -/
theorem balances (hbarycentre : plan.barycentre = true) (hanalysis : 0.0 ≤ plan.analysis)
    (hrms : ∀ sigma, plan.rms = some sigma → 0.0 < sigma) (hs : of plan data = .ok s)
    (hi : i ∈ s.found.islands) : ∃ background, s.levels.background.mean = real background ∧
      i.Balances data background (s.found.footprint i) := by
  obtain ⟨hlevels, -, hfound, -⟩ := of_eq_ok_iff.1 hs
  have hnoise : IsNoise (plan.threshold s.levels.background).analysisLevel := by
    rw [hlevels]
    exact IsNoise.mul hanalysis (Levels.isNoise_sigma hrms data.toList)
  have hsign {p : Pixel rows cols} (hp : p ∈ s.found.footprint i) :
      ((plan.threshold s.levels.background).mark (data.get p)).sign ≠ .background := by
    have hlabel := IslandMap.mem_footprint.1 hp
    rw [← marks_get hs]
    exact sides_ne_of_label hs (IslandMap.ne_zero_of_label hfound hi hlabel)
  have hdeviation {p : Pixel rows cols} (hp : p ∈ s.found.footprint i) :
      Scalar.isFinite (data.get p - s.levels.background.mean) = true :=
    Threshold.isFinite_of_sign (hsign hp)
  obtain ⟨p, hp, -⟩ := IslandMap.exists_extremum hfound hi
  have hp := IslandMap.mem_footprint.2 hp
  -- there is a pixel, and it has a distance from the background, so the background is finite
  obtain ⟨background, hmean⟩ := exists_real_of_isFinite_sub (hdeviation hp)
  rw [hbarycentre, hmean] at hfound
  refine ⟨background, hmean, (IslandMap.balances hfound hi
    (fun q hq => isFinite_of_isFinite_sub (hdeviation hq)) ⟨p, hp, ?_⟩).1⟩
  rw [← hmean]
  exact Threshold.ne_mean_of_sign hnoise (hsign hp)

/-- Fits do not move barycentres. -/
theorem balances_fitted (hbarycentre : plan.barycentre = true) (hanalysis : 0.0 ≤ plan.analysis)
    (hrms : ∀ sigma, plan.rms = some sigma → 0.0 < sigma) (hs : of plan data = .ok s)
    {islands : List (Island Exact)} (h : s.fitted minimiser plan data = .ok islands)
    (hi : i ∈ islands) : ∃ background, s.levels.background.mean = real background ∧
      i.Balances data background (s.found.footprint i) := by
  have hbare : i.bare ∈ s.kept.map Island.bare := by
    rw [← bare_of_fitted h]
    exact List.mem_map_of_mem hi
  obtain ⟨j, hj, hji⟩ := List.mem_map.1 hbare
  rw [(of_eq_ok_iff.1 hs).2.2.2, Island.mem_keepLarge] at hj
  obtain ⟨background, hmean, hbalances⟩ := balances hbarycentre hanalysis hrms hs hj.1
  have hlabel : j.bare.label = i.bare.label := congrArg Island.label hji
  rw [Island.bare_label, Island.bare_label] at hlabel
  have hpixels : s.found.footprint j = s.found.footprint i := by
    rw [IslandMap.footprint, IslandMap.footprint, hlabel]
  rw [hpixels] at hbalances
  exact ⟨background, hmean, hbalances.weight_pos,
    (congrArg Island.xbar hji).symm.trans hbalances.xbar_eq,
    (congrArg Island.ybar hji).symm.trans hbalances.ybar_eq⟩

end Sighting

namespace Island

/-- The barycentre of an island that is finite and not all background is the weighted mean of its
pixels: it is not moved by the box, and for a single pixel it is that pixel. And an island that a
survey finds above or below a threshold that is not negative always has a barycentre. -/
theorem barycentre_balances :
    (∀ {rows cols : Nat} (c : Connectivity) (data : Grid rows cols Exact)
      (marks : Grid rows cols Mark) (background : ℝ),
      ∃ m, IslandMap.ofMarks c data marks (real background) true = .ok m ∧
        ∀ i ∈ m.islands, (∀ p ∈ m.footprint i, Scalar.isFinite (data.get p) = true) →
          (∃ p ∈ m.footprint i, data.get p ≠ real background) →
            i.Balances data background (m.footprint i) ∧
            (i.xbar = IslandMap.unclipped (Census.columns rows cols)
                (IslandMap.source data marks background m i) ∧
              i.ybar = IslandMap.unclipped (Census.lines rows cols)
                (IslandMap.source data marks background m i)) ∧
            ∀ p, m.footprint i = {p} → i.xbar = real p.col.val ∧ i.ybar = real p.row.val) ∧
    ∀ {rows cols : Nat} (minimiser : Minimiser Exact) (plan : Plan Exact)
      (data : Grid rows cols Exact) (r : Survey rows cols Exact), plan.barycentre = true →
      0.0 ≤ plan.analysis → (∀ sigma, plan.rms = some sigma → 0.0 < sigma) →
      (Survey.run minimiser plan data).2 = .ok r →
        ∃ s, Sighting.of plan data = .ok s ∧ ∀ i ∈ r.islands,
          ∃ background, s.levels.background.mean = real background ∧
            i.Balances data background (s.found.footprint i) := by
  constructor
  · intro rows cols c data marks background
    obtain ⟨m, h⟩ := IslandMap.exists_ofMarks c data marks (real background) true
    refine ⟨m, h, fun i hi hfinite hdiffers => ?_⟩
    obtain ⟨hbalances, hunclipped⟩ := IslandMap.balances h hi hfinite hdiffers
    refine ⟨hbalances, hunclipped, fun p hp => ?_⟩
    rw [hp] at hbalances
    exact hbalances.single
  · intro rows cols minimiser plan data r hbarycentre hanalysis hrms hr
    obtain ⟨s, islands, hs, hfitted, rfl⟩ := Survey.run_eq_ok_iff.1 hr
    exact ⟨s, hs, fun i hi => Sighting.balances_fitted hbarycentre hanalysis hrms hs hfitted hi⟩

/-- Two pixels on either side of their mean. -/
def pair : Grid 1 2 Exact := ⟨#v[#v[real (20 : ℕ), real (40 : ℕ)]]⟩

def pairMarks : Grid 1 2 Mark := ⟨#v[#v[⟨.above, true⟩, ⟨.above, false⟩]]⟩

/-- The usual settings without fits, where the noise is given and two values are not clipped. -/
noncomputable def pairPlan : Plan Exact :=
  { Survey.usualPlan with
    fitting := false
    rms := some (real 1)
    clipping := { Survey.usualPlan.clipping with minCount := 3 } }

theorem mean_pairPlan : (Levels.of pairPlan pair.toList).background.mean = real 30 := by
  have hlist : pair.toList = [(20 : ℝ), 40].map real := by
    simp only [List.map_cons, List.map_nil, Grid.toList, pair, Nat.cast_ofNat]
    rfl
  have hne : Background.finite ([(20 : ℝ), 40].map real) ≠ [] := List.cons_ne_nil _ _
  -- two values are fewer than make an estimate
  have hsmall : (Background.Sample.of pairPlan.clipping
      (Background.finite ([(20 : ℝ), 40].map real))).isSmall pairPlan.clipping = true := rfl
  change (Background.report pairPlan.clipping pair.toList).background.mean = _
  rw [hlist, Background.report_of_small hne hsmall]
  change Moments.mean Sum.pairwise ([(20 : ℝ), 40].map real) = _
  rw [Moments.mean_real Sum.pairwise_real (List.cons_ne_nil _ _), Moments.level_pair]
  norm_num

/-- The second pixel is detected. -/
theorem detected_pairPlan {s : Sighting 1 2 Exact} (hs : Sighting.of pairPlan pair = .ok s) :
    (s.marks.get ⟨0, 1⟩).detected = true := by
  have hmean : s.levels.background.mean = real 30 := by
    rw [(Sighting.of_eq_ok_iff.1 hs).1]
    exact mean_pairPlan
  have hsigma : s.levels.background.sigma = real 1 := by
    rw [(Sighting.of_eq_ok_iff.1 hs).1]
    rfl
  have hvalue : pair.get ⟨0, 1⟩ - real 30 = real 10 := by
    change real (40 : ℕ) - real 30 = real 10
    norm_num
  have hlevel (x : ℝ) (hx : x < 10) : real x * real 1 < real 10 := by
    rw [mul_real, mul_one]
    exact (lt_real x 10).2 hx
  rw [marks_get hs]
  simp only [Threshold.mark, Plan.threshold, hmean, hsigma, hvalue, isFinite_real,
    Threshold.analysisLevel, Threshold.detectionLevel]
  simp only [pairPlan, Survey.usualPlan, hlevel 3 (by norm_num), hlevel 5 (by norm_num),
    decide_true, Bool.and_true, Bool.true_or]

/-- The two pixels make an island with a barycentre, and so does every island that a survey of
them finds, of which there are some. -/
theorem barycentre_balances_pair :
    (∃ m, IslandMap.ofMarks .edges pair pairMarks (real 10) true = .ok m ∧ m.islands ≠ [] ∧
      ∀ i ∈ m.islands, i.Balances pair 10 (m.footprint i)) ∧
    ∃ r s, (Survey.run Fit.staying pairPlan pair).2 = .ok r ∧
      Sighting.of pairPlan pair = .ok s ∧ r.islands ≠ [] ∧ ∀ i ∈ r.islands,
        ∃ background, s.levels.background.mean = real background ∧
          i.Balances pair background (s.found.footprint i) := by
  have hvalues (p : Pixel 1 2) : ∃ x : ℝ, pair.get p = real x ∧ 10 < x := by
    obtain ⟨⟨row, hrow⟩, ⟨col, hcol⟩⟩ := p
    interval_cases row
    interval_cases col
    · exact ⟨(20 : ℕ), rfl, by norm_num⟩
    · exact ⟨(40 : ℕ), rfl, by norm_num⟩
  constructor
  · obtain ⟨m, h, hall⟩ := barycentre_balances.1 .edges pair pairMarks 10
    have hlength := IslandMap.islands_length h
    rw [show (Component.label .edges (IslandMap.sides pairMarks)
      (IslandMap.hits pairMarks)).count = 1 by cbv] at hlength
    refine ⟨m, h, List.ne_nil_of_length_eq_add_one hlength, fun i hi => ?_⟩
    obtain ⟨p, hp, -⟩ := IslandMap.exists_extremum h hi
    refine (hall i hi ?_ ⟨p, ?_, ?_⟩).1
    · intro q _
      obtain ⟨x, hx, -⟩ := hvalues q
      rw [hx, isFinite_real]
    · exact IslandMap.mem_footprint.2 hp
    · obtain ⟨x, hx, hlt⟩ := hvalues p
      rw [hx, ne_eq, real.injEq]
      exact hlt.ne'
  · have hfitting : pairPlan.fitting = false := rfl
    obtain ⟨r, hr⟩ := Survey.exists_run hfitting Fit.staying pair
    have hanalysis : 0.0 ≤ pairPlan.analysis := by
      rw [zero_eq]
      exact (le_real 0 3).2 (by norm_num)
    have hrms (sigma : Exact) (h : pairPlan.rms = some sigma) : 0.0 < sigma := by
      cases h
      rw [zero_eq]
      exact (lt_real 0 1).2 one_pos
    obtain ⟨s, hs, hall⟩ := barycentre_balances.2 _ pairPlan pair r rfl hanalysis hrms hr
    refine ⟨r, s, hr, hs, ?_, hall⟩
    obtain ⟨s', islands, hs', hfitted, rfl⟩ := Survey.run_eq_ok_iff.1 hr
    cases hs.symm.trans hs'
    change islands ≠ []
    rw [Sighting.eq_kept_of_fitted hfitting hfitted]
    exact kept_ne_nil_of_detected hs le_rfl (detected_pairPlan hs)

end Island

end SkySources
