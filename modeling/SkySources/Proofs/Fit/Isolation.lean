import Mathlib
import SkySources.Fit

/-!
# What a fit looks at

A fit of an island only looks at the finite pixels up to a margin around its box that
belong to the island or to none (`Concerns`). Two images that have the same finite pixels
with the same values there are alike to it (`Alike`), whatever they hold elsewhere: outside
the margin, at the pixels of other islands, and where no number is.

What is proved:
  1. `holds_padded`: the grown box holds the pixels up to the margin, and lies in the image;
  2. `select_alike`: the same observations are selected from images that are alike, and
     refused for the same reason;
  3. `exists_spread`: a label map as large as the image is read as it is;
  4. `fits_alike`: so the fit is the same.
-/

namespace SkySources

namespace BoundingBox
variable {rows cols : Nat} {b padded : BoundingBox} {margin : Int}

/-- A pixel lies in the box or up to a margin beside it. -/
def IsNear (b : BoundingBox) (margin : Int) (p : Pixel rows cols) : Prop :=
  (b.minRow - margin ≤ p.row.val ∧ p.row.val ≤ b.maxRow + margin) ∧
    b.minCol - margin ≤ p.col.val ∧ p.col.val ≤ b.maxCol + margin

/-- A box lies in a grid of so many rows and columns. -/
structure Inside (b : BoundingBox) (rows cols : Nat) : Prop where
  minRow : 0 ≤ b.minRow
  maxRow : b.maxRow < rows
  minCol : 0 ≤ b.minCol
  maxCol : b.maxCol < cols

theorem holds_iff {p : Pixel rows cols} : b.holds p = true ↔
    (b.minRow ≤ p.row.val ∧ p.row.val ≤ b.maxRow) ∧
      b.minCol ≤ p.col.val ∧ p.col.val ≤ b.maxCol := by
  simp only [holds, Bool.and_eq_true, decide_eq_true_eq, and_assoc]

theorem padded_eq_ok (h : b.padded margin rows cols = .ok padded) :
    (padded.minRow = max (b.minRow - margin) 0 ∧
      padded.maxRow = min (b.maxRow + margin) (rows - 1)) ∧
    padded.minCol = max (b.minCol - margin) 0 ∧
      padded.maxCol = min (b.maxCol + margin) (cols - 1) := by
  unfold BoundingBox.padded make at h
  split at h
  · cases h
    exact ⟨⟨rfl, rfl⟩, rfl, rfl⟩
  · cases h

theorem inside_padded (h : b.padded margin rows cols = .ok padded) : padded.Inside rows cols := by
  obtain ⟨⟨hmin, hmax⟩, hmin', hmax'⟩ := padded_eq_ok h
  exact ⟨by omega, by omega, by omega, by omega⟩

theorem holds_padded (h : b.padded margin rows cols = .ok padded) (p : Pixel rows cols) :
    padded.holds p = true ↔ b.IsNear margin p := by
  obtain ⟨⟨hmin, hmax⟩, hmin', hmax'⟩ := padded_eq_ok h
  have hrow := p.row.isLt
  have hcol := p.col.isLt
  rw [holds_iff, hmin, hmax, hmin', hmax', IsNear]
  omega

end BoundingBox

namespace Fit
variable {α : Type} [Scalar α] {rows cols : Nat} {data data' : Grid rows cols α}
  {labels : Option (Grid rows cols Int)} {island : Island α} {margin : Int} {box : BoundingBox}
  {background : α}

/-- The pixels that a fit of an island may look at: those up to a margin around its box
that belong to it or to no island. -/
def Concerns (labels : Option (Grid rows cols Int)) (island : Island α) (margin : Int)
    (p : Pixel rows cols) : Prop :=
  island.box.IsNear margin p ∧ ∀ map ∈ labels, map.get p = 0 ∨ map.get p = island.label

/-- Two images have the same finite pixels with the same values, among some pixels. -/
structure Alike (P : Pixel rows cols → Prop) (data data' : Grid rows cols α) : Prop where
  isFinite : ∀ p, P p → Scalar.isFinite (data'.get p) = Scalar.isFinite (data.get p)
  value : ∀ p, P p → Scalar.isFinite (data.get p) = true → data'.get p = data.get p

/-! ## Usable pixels -/

theorem isUsable_iff {label : Int} {p : Pixel rows cols} : isUsable data labels label p = true ↔
    Scalar.isFinite (data.get p) = true ∧ ∀ map ∈ labels, map.get p = 0 ∨ map.get p = label := by
  cases labels <;> simp [isUsable]

theorem isMember_iff {label : Int} {p : Pixel rows cols} : isMember data labels label p = true ↔
    Scalar.isFinite (data.get p) = true ∧ ∀ map ∈ labels, map.get p = label := by
  cases labels <;> simp [isMember]

theorem isUsable_of_isMember {label : Int} {p : Pixel rows cols}
    (h : isMember data labels label p = true) : isUsable data labels label p = true := by
  obtain ⟨hfinite, hlabel⟩ := isMember_iff.1 h
  exact isUsable_iff.2 ⟨hfinite, fun map hmap => .inr (hlabel map hmap)⟩

section Region
variable (hbox : ∀ p : Pixel rows cols, box.holds p = true → island.box.IsNear margin p)
  (h : Alike (Concerns labels island margin) data data')
include hbox h

theorem isUsable_alike {p : Pixel rows cols} (hp : box.holds p = true) :
    isUsable data' labels island.label p = isUsable data labels island.label p := by
  rw [Bool.eq_iff_iff, isUsable_iff, isUsable_iff]
  refine and_congr_left fun hlabel => ?_
  rw [h.isFinite p ⟨hbox p hp, hlabel⟩]

theorem isMember_alike {p : Pixel rows cols} (hp : box.holds p = true) :
    isMember data' labels island.label p = isMember data labels island.label p := by
  rw [Bool.eq_iff_iff, isMember_iff, isMember_iff]
  refine and_congr_left fun hlabel => ?_
  rw [h.isFinite p ⟨hbox p hp, fun map hmap => .inr (hlabel map hmap)⟩]

/-- Usable pixels of the region have the same values. -/
theorem get_alike {p : Pixel rows cols} (hp : box.holds p = true)
    (husable : isUsable data labels island.label p = true) : data'.get p = data.get p := by
  obtain ⟨hfinite, hlabel⟩ := isUsable_iff.1 husable
  exact h.value p ⟨hbox p hp, hlabel⟩ hfinite

/-- The same is selected from the region, or refused for the same reason. -/
theorem select_alike : select data' labels island background box =
    select data labels island background box := by
  have hholds {p : Pixel rows cols} (hp : p ∈ (Pixel.raster rows cols).filter box.holds) :
      box.holds p = true := List.of_mem_filter hp
  have husable : ((Pixel.raster rows cols).filter box.holds).filter
        (isUsable data' labels island.label) =
      ((Pixel.raster rows cols).filter box.holds).filter (isUsable data labels island.label) :=
    List.filter_congr fun p hp => isUsable_alike hbox h (hholds hp)
  have hmember : ((Pixel.raster rows cols).filter box.holds).filter
        (isMember data' labels island.label) =
      ((Pixel.raster rows cols).filter box.holds).filter (isMember data labels island.label) :=
    List.filter_congr fun p hp => isMember_alike hbox h (hholds hp)
  have hvalues : (((Pixel.raster rows cols).filter box.holds).filter
        (isMember data labels island.label)).map data'.get =
      (((Pixel.raster rows cols).filter box.holds).filter
        (isMember data labels island.label)).map data.get := by
    apply List.map_congr_left
    intro p hp
    obtain ⟨hregion, hp'⟩ := List.mem_filter.1 hp
    exact get_alike hbox h (hholds hregion) (isUsable_of_isMember hp')
  have hobservations : observations data' island.sign background
        (((Pixel.raster rows cols).filter box.holds).filter (isUsable data labels island.label)) =
      observations data island.sign background
        (((Pixel.raster rows cols).filter box.holds).filter
          (isUsable data labels island.label)) := by
    apply List.map_congr_left
    intro p hp
    obtain ⟨hregion, hp'⟩ := List.mem_filter.1 hp
    rw [get_alike hbox h (hholds hregion) hp']
  simp only [select, husable, hmember, hvalues, hobservations]

theorem ofRegion_alike (minimiser : Minimiser α) (d : Differencing) :
    ofRegion minimiser d data' labels island background box =
      ofRegion minimiser d data labels island background box := by
  rw [ofRegion, ofRegion, select_alike hbox h]

end Region

/-! ## Label maps -/

theorem labelPlace_eq {first last : Int} {count n : Nat} (hfirst : 0 ≤ first) (hlast : last < count)
    (hn : first ≤ n) (hn' : (n : Int) ≤ last) : labelPlace first last count n = n := by
  have hcovered : covered first last count = (last + 1 - first).toNat := by
    rw [covered]
    congr 1
    have : Int.ofNat count = count := rfl
    omega
  rw [labelPlace, hcovered]
  split <;> omega

theorem isEnough_eq {first last : Int} {count : Nat} (hle : first ≤ last) (hlast : last < count) :
    isEnough first last count = true := by
  have hcovered : Int.ofNat (covered first last count) = last - first + 1 := by
    rw [covered]
    have : Int.ofNat count = count := rfl
    have hto : Int.ofNat (min (last + 1) (Int.ofNat count) - min first (Int.ofNat count)).toNat =
        min (last + 1) (Int.ofNat count) - min first (Int.ofNat count) :=
      Int.toNat_of_nonneg (by omega)
    omega
  rw [isEnough, hcovered]
  simp

/-- A label map as large as the image is read as it is. -/
theorem exists_spread (map : Grid rows cols Int) (hbox : box.Inside rows cols) :
    ∃ spread : Grid rows cols Int, spread? (Image.mk map) box = some spread ∧
      ∀ p : Pixel rows cols, box.holds p = true → spread.get p = map.get p := by
  unfold spread?
  rw [if_pos (by
    rw [isEnough_eq box.rows_le hbox.maxRow, isEnough_eq box.cols_le hbox.maxCol]
    rfl)]
  refine ⟨_, rfl, ?_⟩
  intro p hp
  obtain ⟨⟨hmin, hmax⟩, hmin', hmax'⟩ := BoundingBox.holds_iff.1 hp
  rw [Grid.get_ofFn, labelPlace_eq hbox.minRow hbox.maxRow hmin hmax,
    labelPlace_eq hbox.minCol hbox.maxCol hmin' hmax']
  simp [Grid.toRows, Grid.get]

/-- The labels of a region are read as they are, if there is a map. -/
theorem exists_labelsIn (labels : Option (Grid rows cols Int)) (hbox : box.Inside rows cols) :
    ∃ spread : Option (Grid rows cols Int), labelsIn (labels.map Image.mk) box = .ok spread ∧
      ∀ p : Pixel rows cols, box.holds p = true →
        spread.map (Grid.get · p) = labels.map (Grid.get · p) := by
  cases labels with
  | none => exact ⟨none, rfl, fun _ _ => rfl⟩
  | some map =>
    obtain ⟨spread, hspread, hget⟩ := exists_spread map hbox
    refine ⟨some spread, ?_, fun p hp => congrArg some (hget p hp)⟩
    simp only [labelsIn, Option.map_some, hspread]

/-! ## Fits -/

theorem Alike.mono {P Q : Pixel rows cols → Prop} (h : Alike P data data') (hQ : ∀ p, Q p → P p) :
    Alike Q data data' :=
  ⟨fun p hp => h.isFinite p (hQ p hp), fun p hp => h.value p (hQ p hp)⟩

theorem ofIsland_eq_of_alike (minimiser : Minimiser α) (d : Differencing)
    (h : Alike (Concerns labels island margin) data data') :
    ofIsland minimiser d margin data' labels background island =
      ofIsland minimiser d margin data labels background island := by
  rw [ofIsland, ofIsland]
  cases hbox : island.box.padded margin rows cols with
  | error inverted => rfl
  | ok box => exact ofRegion_alike (fun p => (BoundingBox.holds_padded hbox p).1) h minimiser d

theorem named_eq_of_alike (minimiser : Minimiser α) (differencing : String)
    (h : Alike (Concerns labels island margin) data data') :
    named minimiser differencing margin data' (labels.map Image.mk) background island =
      named minimiser differencing margin data (labels.map Image.mk) background island := by
  rw [named, named]
  cases hbox : island.box.padded margin rows cols with
  | error inverted => rfl
  | ok box =>
    have hnear (p : Pixel rows cols) := BoundingBox.holds_padded hbox p
    obtain ⟨spread, hspread, hget⟩ := exists_labelsIn labels (BoundingBox.inside_padded hbox)
    -- the labels that are read are those of the map, wherever the fit may look
    have hspread' : Alike (Concerns spread island margin) data data' := by
      apply h.mono
      intro p hp
      refine ⟨hp.1, ?_⟩
      intro map hmap
      have hsome : spread.map (Grid.get · p) = some (map.get p) := by
        rw [hget p ((hnear p).2 hp.1), Option.mem_def.1 hmap]
        rfl
      obtain ⟨map', hmap', heq⟩ := Option.map_eq_some_iff.1 hsome
      rw [← heq]
      exact hp.2 map' hmap'
    simp only [hspread]
    cases Differencing.ofName? differencing with
    | none => simp only [select_alike (fun p => (hnear p).1) hspread']
    | some d => exact ofRegion_alike (fun p => (hnear p).1) hspread' minimiser d

/-- Fits of an island in two images that are alike at the pixels that concern it are the
same: the same Gaussian, or the same reason why there is none. It does not matter whether
the way to find derivatives is given or named, nor whether there is a label map. -/
theorem fits_alike (minimiser : Minimiser α) (d : Differencing) (differencing : String)
    (margin : Int) (labels : Option (Grid rows cols Int)) (background : α) (island : Island α)
    (data data' : Grid rows cols α) (h : Alike (Concerns labels island margin) data data') :
    ofIsland minimiser d margin data' labels background island =
        ofIsland minimiser d margin data labels background island ∧
      named minimiser differencing margin data' (labels.map Image.mk) background island =
        named minimiser differencing margin data (labels.map Image.mk) background island :=
  ⟨ofIsland_eq_of_alike minimiser d h, named_eq_of_alike minimiser differencing h⟩

/-- An island beside another one, with pixels of neither below it. -/
def neighboured : Grid 4 3 Int := ⟨#v[#v[1, 1, 1], #v[1, 0, 2], #v[0, 0, 0], #v[0, 0, 0]]⟩

/-- An image with a missing pixel next to the island. -/
def holed : Grid 4 3 Float :=
  ⟨#v[#v[5.0, 6.0, 7.0], #v[8.0, 0.0 / 0.0, 9.0], #v[1.0, 1.0, 1.0], #v[2.0, 2.0, 2.0]]⟩

/-- The image, but infinite where the pixel was missing and at the other island, and
changed far from the island. -/
def holedElsewhere : Grid 4 3 Float :=
  Grid.ofFn fun p =>
    if p.row = 3 then 7.0 else if p.row = 1 ∧ p.col ≠ 0 then 1.0 / 0.0 else holed.get p

def corner : Island Float :=
  { label := 1, sign := 1, box := ⟨0, 1, 0, 2, by decide, by decide⟩, npix := 4, extremum := 8.0
    column := 0, row := 1, xbar := 0.0, ybar := 0.0, fit := none, fitFailed := false }

def usualSearch : Minimiser Float := Solver.trustRegion.searches ⟨200, 1e-10⟩

/-- The two images lead to the same fit of the island with a margin of one pixel. -/
theorem fits_alike_holed : Alike (Concerns (some neighboured) corner 1) holed holedElsewhere ∧
    ofIsland usualSearch .analytic 1 holedElsewhere (some neighboured) 0.0 corner =
        ofIsland usualSearch .analytic 1 holed (some neighboured) 0.0 corner ∧
      named usualSearch "numeric" 1 holedElsewhere (some (Image.mk neighboured)) 0.0 corner =
        named usualSearch "numeric" 1 holed (some (Image.mk neighboured)) 0.0 corner := by
  have h : Alike (Concerns (some neighboured) corner 1) holed holedElsewhere := by
    constructor
    · rintro ⟨row, col⟩ ⟨hnear, hlabel⟩
      revert hnear hlabel
      unfold BoundingBox.IsNear
      revert row col
      decide +kernel
    · rintro ⟨row, col⟩ ⟨hnear, hlabel⟩ hfinite
      have hplace : row ≠ 3 ∧ ¬(row = 1 ∧ col ≠ 0) := by
        revert hnear hlabel hfinite
        unfold BoundingBox.IsNear
        revert row col
        decide +kernel
      rw [holedElsewhere, Grid.get_ofFn, if_neg hplace.1, if_neg hplace.2]
  exact ⟨h, fits_alike usualSearch .analytic "numeric" 1 (some neighboured) 0.0 corner holed
    holedElsewhere h⟩

end Fit
end SkySources
