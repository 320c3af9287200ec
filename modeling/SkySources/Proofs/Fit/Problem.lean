import Mathlib
import SkySources.Proofs.Count
import SkySources.Proofs.Fit.Acceptance
import SkySources.Proofs.Residuals.Blocks

/-!
# The pixels of a fit

A fit of an island looks at the finite pixels up to a margin around its box that belong to the
island or to none, each of them once and in raster order, with its column, its row and its
value over or under the background. So the rows come in order, and where there is a block for
each row, these are the rows that hold such a pixel (`rowsHeld`), each with all of its pixels.

What is proved:
  1. `flatMap_rowsHeld`: pixels in raster order fall into their rows;
  2. `splitBy_observations`: where the rows are told apart, so do their observations;
  3. `ofRegion_eq`: what is asked about a region, and when;
  4. `ofIsland_problem`: the problem of an island, from the image and the margin.
-/

namespace SkySources

namespace Pixel
variable {rows cols : Nat} {p q : Pixel rows cols}

theorem row_le_of_index_lt (h : p.index < q.index) : p.row ≤ q.row := by
  have hdiv := Nat.div_le_div_right (c := cols) h.le
  rwa [index_div, index_div] at hdiv

theorem index_lt_of_row_lt (h : p.row < q.row) : p.index < q.index := by
  by_contra hle
  have hdiv := Nat.div_le_div_right (c := cols) (not_lt.1 hle)
  rw [index_div, index_div] at hdiv
  exact absurd h (not_lt.2 hdiv)

end Pixel

namespace Fit

/-! ## Rows of pixels -/

section Rows
variable {rows cols : Nat} {pixels : List (Pixel rows cols)}

/-- The pixels of a row. -/
def inRow (pixels : List (Pixel rows cols)) (r : Fin rows) : List (Pixel rows cols) :=
  pixels.filter fun p => p.row = r

/-- The rows that hold one of some pixels, from the top to the bottom. -/
def rowsHeld (pixels : List (Pixel rows cols)) : List (Fin rows) :=
  (List.finRange rows).filter fun r => pixels.any fun p => p.row = r

theorem mem_inRow {p : Pixel rows cols} {r : Fin rows} :
    p ∈ inRow pixels r ↔ p ∈ pixels ∧ p.row = r := by
  simp [inRow]

theorem mem_rowsHeld {r : Fin rows} : r ∈ rowsHeld pixels ↔ ∃ p ∈ pixels, p.row = r := by
  simp [rowsHeld]

theorem inRow_ne_nil {r : Fin rows} (h : r ∈ rowsHeld pixels) : inRow pixels r ≠ [] := by
  obtain ⟨p, hp, hr⟩ := mem_rowsHeld.1 h
  exact List.ne_nil_of_mem (mem_inRow.2 ⟨hp, hr⟩)

theorem rowsHeld_pairwise (pixels : List (Pixel rows cols)) : (rowsHeld pixels).Pairwise (· < ·) :=
  (List.pairwise_lt_finRange rows).filter _

/-- Pixels in raster order come row by row. -/
theorem flatMap_rowsHeld (h : pixels.Pairwise fun p q => p.index < q.index) :
    (rowsHeld pixels).flatMap (inRow pixels) = pixels := by
  refine eq_of_pairwise_of_mem_iff (fun p _ q _ hpq => not_lt.2 hpq.le) ?_ h fun p => ?_
  · refine List.pairwise_flatMap.2 ⟨fun r _ => h.filter _, ?_⟩
    refine (rowsHeld_pairwise pixels).imp fun hrs p hp q hq => ?_
    rw [mem_inRow] at hp hq
    exact Pixel.index_lt_of_row_lt (hp.2 ▸ hq.2 ▸ hrs)
  · rw [List.mem_flatMap]
    constructor
    · rintro ⟨r, -, hp⟩
      exact (mem_inRow.1 hp).1
    · intro hp
      exact ⟨p.row, mem_rowsHeld.2 ⟨p, hp, rfl⟩, mem_inRow.2 ⟨hp, rfl⟩⟩

end Rows

section Observations
variable {α : Type} [Scalar α] {rows cols : Nat} {data : Grid rows cols α}
  {labels : Option (Grid rows cols Int)} {island : Island α} {background : α} {box : BoundingBox}
  {margin : Int} {pixels : List (Pixel rows cols)}

/-! ## Rows of observations -/

/-- What is observed at a pixel. -/
def observe (data : Grid rows cols α) (sign : Int) (background : α) (p : Pixel rows cols) :
    Observation α :=
  ⟨Scalar.ofNat p.col.val, Scalar.ofNat p.row.val, Scalar.ofInt sign * (data.get p - background)⟩

theorem observations_eq (data : Grid rows cols α) (sign : Int) (background : α)
    (pixels : List (Pixel rows cols)) :
    observations data sign background pixels = pixels.map (observe data sign background) := rfl

theorem observations_ne_nil (sign : Int) (h : pixels ≠ []) :
    observations data sign background pixels ≠ [] :=
  fun hnil => h (List.map_eq_nil_iff.1 hnil)

theorem sameRow_observe (hcounts : Counts α rows) (sign : Int) (p q : Pixel rows cols) :
    Residuals.sameRow (observe data sign background p) (observe data sign background q) = true ↔
      p.row = q.row := by
  rw [Residuals.sameRow]
  exact (hcounts.same _ _ p.row.isLt q.row.isLt).trans Fin.val_inj

/-- Pixels in raster order are observed from the top to the bottom. -/
theorem rows_pairwise (hcounts : Counts α rows) (sign : Int)
    (h : pixels.Pairwise fun p q => p.index < q.index) :
    ((observations data sign background pixels).map (·.y)).Pairwise (· ≤ ·) := by
  rw [observations_eq, List.map_map, List.pairwise_map]
  exact h.imp fun hpq => hcounts.le _ _ (Pixel.row_le_of_index_lt hpq) (Fin.isLt _)

/-- Observations of pixels in raster order fall into those of each row. -/
theorem splitBy_observations (hcounts : Counts α rows) (sign : Int)
    (h : pixels.Pairwise fun p q => p.index < q.index) :
    (observations data sign background pixels).splitBy Residuals.sameRow =
      (rowsHeld pixels).map fun r => observations data sign background (inRow pixels r) := by
  have hrow {r : Fin rows} {o : Observation α}
      (ho : o ∈ observations data sign background (inRow pixels r)) :
      ∃ p : Pixel rows cols, p.row = r ∧ observe data sign background p = o := by
    obtain ⟨p, hp, rfl⟩ := List.mem_map.1 ho
    exact ⟨p, (mem_inRow.1 hp).2, rfl⟩
  refine List.splitBy_eq_iff.2 ⟨?_, ?_, ?_, ?_⟩
  · conv_lhs => rw [← flatMap_rowsHeld h]
    rw [← List.flatMap_def, observations_eq, List.map_flatMap]
    rfl
  · intro hnil
    obtain ⟨r, hr, hempty⟩ := List.mem_map.1 hnil
    exact inRow_ne_nil hr (List.map_eq_nil_iff.1 hempty)
  · -- the observations of one row
    intro m hm
    obtain ⟨r, -, rfl⟩ := List.mem_map.1 hm
    refine (List.pairwise_of_forall_mem_list fun a ha b hb => ?_).isChain
    obtain ⟨p, hp, rfl⟩ := hrow ha
    obtain ⟨q, hq, rfl⟩ := hrow hb
    exact (sameRow_observe hcounts sign p q).2 (hp.trans hq.symm)
  · -- the last observation of a row and the first one of the next
    refine (List.isChain_map _).2 ((rowsHeld_pairwise pixels).isChain.imp_of_mem_imp ?_)
    intro r s hr hs hrs
    have hr' : observations data sign background (inRow pixels r) ≠ [] :=
      observations_ne_nil sign (inRow_ne_nil hr)
    have hs' : observations data sign background (inRow pixels s) ≠ [] :=
      observations_ne_nil sign (inRow_ne_nil hs)
    refine ⟨hr', hs', ?_⟩
    obtain ⟨p, hp, hlast⟩ := hrow (List.getLast_mem hr')
    obtain ⟨q, hq, hhead⟩ := hrow (List.head_mem hs')
    rw [← hlast, ← hhead, ← Bool.not_eq_true, sameRow_observe hcounts, hp, hq]
    exact hrs.ne

/-! ## The problem of a region -/

/-- The pixels of a region that take part in a fit. -/
def partaking (data : Grid rows cols α) (labels : Option (Grid rows cols Int)) (label : Int)
    (box : BoundingBox) : List (Pixel rows cols) :=
  ((Pixel.raster rows cols).filter box.holds).filter (isUsable data labels label)

theorem partaking_pairwise (data : Grid rows cols α) (labels : Option (Grid rows cols Int))
    (label : Int) (box : BoundingBox) :
    (partaking data labels label box).Pairwise fun p q => p.index < q.index :=
  ((Pixel.raster_pairwise rows cols).filter _).filter _

theorem mem_partaking {label : Int} {p : Pixel rows cols} : p ∈ partaking data labels label box ↔
    box.holds p = true ∧ isUsable data labels label p = true := by
  simp only [partaking, List.mem_filter, Pixel.mem_raster, true_and]

/-- A region is refused if its pixels that belong to the island are all alike, or if fewer than
six take part; otherwise the minimiser is asked about those. -/
theorem ofRegion_eq (minimiser : Minimiser α) (d : Differencing) (data : Grid rows cols α)
    (labels : Option (Grid rows cols Int)) (island : Island α) (background : α)
    (box : BoundingBox) : ofRegion minimiser d data labels island background box =
      let pixels := partaking data labels island.label box
      if allAlike ((pixels.filter (isMember data labels island.label)).map data.get) then
        .ok (.error .flat)
      else if pixels.length < 6 then .ok (.error (.fewPixels pixels.length))
      else
        conclude box island.sign (minimiser
          (Residuals.ofObservations d (observations data island.sign background pixels))
          (initialGuess island background).toList) := by
  have hmembers : ((Pixel.raster rows cols).filter box.holds).filter
        (isMember data labels island.label) =
      (partaking data labels island.label box).filter (isMember data labels island.label) := by
    rw [partaking, List.filter_filter (l := (Pixel.raster rows cols).filter box.holds)]
    refine List.filter_congr fun p _ => ?_
    cases h : isMember data labels island.label p with
    | true => rw [isUsable_of_isMember h, Bool.and_self]
    | false => rw [Bool.false_and]
  have husable : ((Pixel.raster rows cols).filter box.holds).filter
      (isUsable data labels island.label) = partaking data labels island.label box := rfl
  simp only [ofRegion, select, hmembers, husable]
  split_ifs <;> rfl

/-! ## The problem of an island -/

/-- The residuals are about some pixels of an image, which are those that a fit of an island may
look at. -/
structure IsAbout (problem : Residuals α) (pixels : List (Pixel rows cols))
    (data : Grid rows cols α) (labels : Option (Grid rows cols Int)) (background : α)
    (island : Island α) (margin : Int) : Prop where
  /-- They come in raster order, and none of them comes twice. -/
  ordered : pixels.Pairwise fun p q => p.index < q.index
  /-- They are the finite ones up to the margin that belong to the island or to none. -/
  mem_iff : ∀ p, p ∈ pixels ↔ Scalar.isFinite (data.get p) = true ∧ Concerns labels island margin p
  /-- Each of them is one observation. -/
  points : problem.points = pixels.map fun p =>
    ⟨Scalar.ofNat p.col.val, Scalar.ofNat p.row.val,
      Scalar.ofInt island.sign * (data.get p - background)⟩

/-- The observations of residuals come row by row, and unless they are all in one block, there is
a block for each row with one of the pixels, in order and with the observations of its pixels. -/
structure FollowsRows (problem : Residuals α) (pixels : List (Pixel rows cols))
    (data : Grid rows cols α) (sign : Int) (background : α) : Prop where
  rows : (problem.points.map (·.y)).Pairwise (· ≤ ·)
  blocks : problem.differencing.isSingleBlock = false → pixels ≠ [] →
    problem.blocks = Residuals.laidFrom 0
      ((rowsHeld pixels).map fun r => observations data sign background (inRow pixels r))

theorem followsRows (hcounts : Counts α rows) (d : Differencing) (sign : Int)
    (h : pixels.Pairwise fun p q => p.index < q.index) :
    FollowsRows (Residuals.ofObservations d (observations data sign background pixels)) pixels
      data sign background where
  rows := by
    rw [Residuals.points_ofObservations]
    exact rows_pairwise hcounts sign h
  blocks hd hne := by
    have hsingle : d.isSingleBlock = false := hd
    rw [Residuals.blocks_eq hsingle (observations_ne_nil sign hne),
      splitBy_observations hcounts sign h]

/-- An island in an image poses one problem, with any label map or none and with any margin. It
is about the finite pixels up to the margin around the box of the island, inside the image, that
belong to the island or to none, and about nothing else. It is handed to the minimiser unless
the pixels of the island are all alike or fewer than six take part. As far as the numbers
count, it follows the rows of the image. -/
theorem ofIsland_problem (d : Differencing) (hmargin : 0 ≤ margin) (data : Grid rows cols α)
    (labels : Option (Grid rows cols Int)) (background : α)
    (hinside : island.box.Inside rows cols) :
    ∃ (box : BoundingBox) (pixels : List (Pixel rows cols)) (problem : Residuals α),
      island.box.padded margin rows cols = .ok box ∧
      IsAbout problem pixels data labels background island margin ∧
      problem.differencing = d ∧
      (Counts α rows → FollowsRows problem pixels data island.sign background) ∧
      ∀ minimiser : Minimiser α,
        ofIsland minimiser d margin data labels background island =
          (if allAlike ((pixels.filter (isMember data labels island.label)).map data.get) then
            .ok (.error .flat)
          else if pixels.length < 6 then .ok (.error (.fewPixels pixels.length))
          else
            conclude box island.sign
              (minimiser problem (initialGuess island background).toList)) ∧
        named minimiser d.name margin data (labels.map Image.mk) background island =
          ofIsland minimiser d margin data labels background island := by
  obtain ⟨box, hbox⟩ := exists_padded hmargin hinside
  have hordered := partaking_pairwise data labels island.label box
  refine ⟨box, partaking data labels island.label box, _, hbox, ⟨hordered, fun p => ?_, ?_⟩, rfl,
    fun hcounts => followsRows hcounts d island.sign hordered, fun minimiser => ⟨?_, ?_⟩⟩
  · rw [mem_partaking, BoundingBox.holds_padded hbox, isUsable_iff, Concerns, and_left_comm]
  · exact Residuals.points_ofObservations d _
  · rw [ofIsland, hbox]
    exact ofRegion_eq minimiser d data labels island background box
  · exact named_eq_ofIsland minimiser d margin data labels background island

/-- The pixels of the image that a fit of the island in the corner looks at. -/
def unobstructed : List (Pixel 4 3) :=
  (Pixel.raster 4 3).filter fun p => p.row.val ≠ 3 ∧ (p.row.val = 1 → p.col.val = 0)

theorem mem_unobstructed (p : Pixel 4 3) : p ∈ unobstructed ↔
    Scalar.isFinite (holed.get p) = true ∧ Concerns (some neighboured) corner 1 p := by
  obtain ⟨row, col⟩ := p
  unfold Concerns BoundingBox.IsNear unobstructed
  rw [List.mem_filter, and_iff_right (Pixel.mem_raster _)]
  revert row col
  decide +kernel

/-- With a margin of one pixel three rows hold seven pixels of the problem. Of the second row
only the first pixel is left: the next is missing, and the last belongs to another island. -/
theorem ofIsland_problem_holed : ((0 : Int) ≤ 1 ∧ corner.box.Inside 4 3) ∧
    ∃ problem : Residuals Float,
      problem.points = unobstructed.map (observe holed 1 0.0) ∧
      problem.blocks.map Block.slice = [(0, 3), (3, 4), (4, 7)] ∧
      ∃ box : BoundingBox, ∀ minimiser : Minimiser Float,
        ofIsland minimiser .analytic 1 holed (some neighboured) 0.0 corner =
          conclude box 1 (minimiser problem (initialGuess corner 0.0).toList) := by
  have hmargin : (0 : Int) ≤ 1 := by decide
  have hinside : corner.box.Inside 4 3 := ⟨by decide, by decide, by decide, by decide⟩
  obtain ⟨box, pixels, problem, -, habout, hd, hrows, hasked⟩ :=
    ofIsland_problem .analytic hmargin holed (some neighboured) 0.0 hinside
  have hpixels : pixels = unobstructed := by
    refine eq_of_pairwise_of_mem_iff (fun p _ q _ hpq => not_lt.2 hpq.le) habout.ordered
      ((Pixel.raster_pairwise 4 3).filter _) fun p => ?_
    rw [habout.mem_iff, mem_unobstructed]
  subst hpixels
  refine ⟨⟨hmargin, hinside⟩, problem, habout.points, ?_, box, fun minimiser => ?_⟩
  · have hfollows := hrows (counts_double (by decide))
    rw [hfollows.blocks (by rw [hd]; rfl) (by decide)]
    rfl
  · rw [(hasked minimiser).1, if_neg (by decide +kernel), if_neg (by decide)]
    rfl

end Observations

end Fit
end SkySources
