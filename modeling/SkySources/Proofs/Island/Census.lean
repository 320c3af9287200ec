import Mathlib
import SkySources.Island
import SkySources.Proofs.Tally

/-!
# What a census knows

A census goes over its pixels one after the other, so each of its fields is
known from what one more pixel does to it (`add_count`, `add_sign`, …) by
induction on the pixels from the last one on (`ofPixels_concat`).

What is proved: the count is the number of pixels; pixels of one sign leave that
sign; the extremum is the value of a pixel; the bounds are the tightest ones around
the pixels and lie in the grid, so that a census of at least one pixel makes an island
(`exists_island`); and one pass over a grid is a census of its own for the pixels of
each label (`ofLabels_eq`).
-/

namespace SkySources

/-- An island without its barycentre. -/
def Island.withoutCentre {α : Type} [Scalar α] (i : Island α) : Island α :=
  { i with xbar := Scalar.missing, ybar := Scalar.missing }

namespace Census
variable {α : Type} [Scalar α]

/-! ## One more pixel -/

section Add
variable (background : α) (c : Census α) (row col : Nat) (value : α) (sign : Int)

omit [Scalar α] in
@[simp] theorem opened_count : (c.opened row col).count = c.count := by
  unfold opened; split <;> rfl

@[simp] theorem raised_count : (c.raised row col value sign).count = c.count := by
  unfold raised; split <;> rfl

@[simp] theorem add_count : (add background c row col value sign).count = c.count + 1 := by
  simp [add, counted]

@[simp] theorem add_sign : (add background c row col value sign).sign = sign := rfl

@[simp] theorem add_minRow : (add background c row col value sign).minRow = min c.minRow row := by
  simp only [add, counted, opened, raised]
  split <;> split <;> rfl

@[simp] theorem add_maxRow : (add background c row col value sign).maxRow = max c.maxRow row := by
  simp only [add, counted, opened, raised]
  split <;> split <;> rfl

@[simp] theorem add_minCol : (add background c row col value sign).minCol = min c.minCol col := by
  simp only [add, counted, opened, raised]
  split <;> split <;> rfl

@[simp] theorem add_maxCol : (add background c row col value sign).maxCol = max c.maxCol col := by
  simp only [add, counted, opened, raised]
  split <;> split <;> rfl

omit [Scalar α] in
/-- The extremum of a census, with its row and column. -/
def peak (c : Census α) : α × Nat × Nat := (c.extremum, c.extremumRow, c.extremumCol)

/-- The extremum moves to the first pixel, and to one that stands out more. -/
theorem add_peak : (add background c row col value sign).peak =
    if c.count = 0 ∨ Scalar.ofInt sign * c.peak.1 < Scalar.ofInt sign * value then (value, row, col)
    else c.peak := by
  have hopened : (c.opened row col).peak = c.peak := by unfold opened; split <;> rfl
  have hextremum : (c.opened row col).extremum = c.peak.1 := congrArg Prod.fst hopened
  change ((c.opened row col).raised row col value sign).peak = _
  rw [raised, opened_count, hextremum, ← hopened]
  split <;> rfl

end Add

/-! ## The census of some pixels -/

variable {rows cols : Nat}

/-- The census of some pixels. -/
def ofPixels (data : Grid rows cols α) (signs : Grid rows cols Int) (background : α)
    (pixels : List (Pixel rows cols)) : Census α :=
  pixels.foldl (fun c p => c.add background p.row.val p.col.val (data.get p) (signs.get p))
    (empty rows cols)

variable {data : Grid rows cols α} {signs : Grid rows cols Int} {background : α}

theorem ofPixels_concat (ps : List (Pixel rows cols)) (p : Pixel rows cols) :
    ofPixels data signs background (ps ++ [p]) =
      (ofPixels data signs background ps).add background p.row.val p.col.val (data.get p)
        (signs.get p) := by
  rw [ofPixels, List.foldl_append]
  rfl

theorem ofPixels_count (ps : List (Pixel rows cols)) :
    (ofPixels data signs background ps).count = ps.length := by
  induction ps using List.reverseRecOn with
  | nil => rfl
  | append_singleton ps p ih => rw [ofPixels_concat, add_count, ih, List.length_append]; rfl

/-- The sign of a census is that of its pixels, if they have a common one. -/
theorem ofPixels_sign {s : Int} {ps : List (Pixel rows cols)} (hne : ps ≠ [])
    (h : ∀ p ∈ ps, signs.get p = s) : (ofPixels data signs background ps).sign = s := by
  induction ps using List.reverseRecOn with
  | nil => exact absurd rfl hne
  | append_singleton ps p _ =>
    rw [ofPixels_concat, add_sign]
    exact h p (by simp)

variable (data signs background) in
/-- The extremum is the value of one of the pixels. -/
theorem exists_ofPixels_peak {ps : List (Pixel rows cols)} (hne : ps ≠ []) :
    ∃ p ∈ ps, (ofPixels data signs background ps).peak = (data.get p, p.row.val, p.col.val) := by
  induction ps using List.reverseRecOn with
  | nil => exact absurd rfl hne
  | append_singleton ps p ih =>
    rw [ofPixels_concat, add_peak]
    split
    · exact ⟨p, by simp, rfl⟩
    · next hkept =>
      -- the extremum so far stays, so there was a pixel before
      have hbefore : ps ≠ [] := by
        rintro rfl
        exact hkept (.inl rfl)
      obtain ⟨q, hq, he⟩ := ih hbefore
      exact ⟨q, List.mem_append_left _ hq, he⟩

/-! ## Bounds -/

theorem setOf_mem_concat (ps : List (Pixel rows cols)) (p : Pixel rows cols) :
    {q | q ∈ ps ++ [p]} = insert p {q | q ∈ ps} := by
  ext q
  simp [or_comm]

section Bounds
variable {β : Type} [LinearOrder β] {g : Census α → β} {x : Pixel rows cols → β}
  {ps : List (Pixel rows cols)}

/-- A bound that each pixel lowers, if it lies lower, is the lowest that there is. -/
theorem ofPixels_isLeast (hempty : ∀ p, x p ≤ g (empty rows cols))
    (hadd : ∀ c p, g (add background c p.row.val p.col.val (data.get p) (signs.get p)) =
      min (g c) (x p)) (hne : ps ≠ []) :
    IsLeast (x '' {p | p ∈ ps}) (g (ofPixels data signs background ps)) := by
  induction ps using List.reverseRecOn with
  | nil => exact absurd rfl hne
  | append_singleton ps p ih =>
    rw [ofPixels_concat, hadd]
    rcases eq_or_ne ps [] with rfl | hbefore
    · have hfirst : min (g (empty rows cols)) (x p) = x p := min_eq_right (hempty p)
      simp [ofPixels, hfirst]
    · rw [setOf_mem_concat, Set.image_insert_eq, min_comm]
      exact (ih hbefore).insert (x p)

/-- The same for a bound that each pixel raises. -/
theorem ofPixels_isGreatest (hempty : ∀ p, g (empty rows cols) ≤ x p)
    (hadd : ∀ c p, g (add background c p.row.val p.col.val (data.get p) (signs.get p)) =
      max (g c) (x p)) (hne : ps ≠ []) :
    IsGreatest (x '' {p | p ∈ ps}) (g (ofPixels data signs background ps)) :=
  ofPixels_isLeast (β := βᵒᵈ) hempty hadd hne

variable (data signs background) (hne : ps ≠ [])
include hne

theorem ofPixels_minRow : IsLeast ((fun p => (p.row.val : Int)) '' {p | p ∈ ps})
    (ofPixels data signs background ps).minRow :=
  ofPixels_isLeast (fun p => Int.ofNat_le.2 p.row.isLt.le) (fun _ _ => add_minRow _ _ _ _ _ _) hne

theorem ofPixels_maxRow : IsGreatest ((fun p => (p.row.val : Int)) '' {p | p ∈ ps})
    (ofPixels data signs background ps).maxRow :=
  ofPixels_isGreatest (fun _ => by simp [empty]) (fun _ _ => add_maxRow _ _ _ _ _ _) hne

theorem ofPixels_minCol : IsLeast ((fun p => (p.col.val : Int)) '' {p | p ∈ ps})
    (ofPixels data signs background ps).minCol :=
  ofPixels_isLeast (fun p => Int.ofNat_le.2 p.col.isLt.le) (fun _ _ => add_minCol _ _ _ _ _ _) hne

theorem ofPixels_maxCol : IsGreatest ((fun p => (p.col.val : Int)) '' {p | p ∈ ps})
    (ofPixels data signs background ps).maxCol :=
  ofPixels_isGreatest (fun _ => by simp [empty]) (fun _ _ => add_maxCol _ _ _ _ _ _) hne

end Bounds

variable (data signs background) in
theorem ofPixels_inside (ps : List (Pixel rows cols)) :
    let c := ofPixels data signs background ps
    (0 ≤ c.minRow ∧ c.maxRow < rows) ∧ 0 ≤ c.minCol ∧ c.maxCol < cols := by
  induction ps using List.reverseRecOn with
  | nil => simp only [ofPixels, List.foldl_nil, empty]; omega
  | append_singleton ps q ih =>
    have hr := q.row.isLt
    have hc := q.col.isLt
    simp only [ofPixels_concat, add_minRow, add_maxRow, add_minCol, add_maxCol]
    simp only at ih
    omega

/-! ## The censuses of all labels -/

/-- One pass over the grid makes the census of the pixels of each label. -/
theorem ofLabels_eq (data : Grid rows cols α) (signs : Grid rows cols Int)
    (labels : Grid rows cols Nat) (count : Nat) (background : α) :
    ofLabels data signs labels count background = (List.range count).map fun k =>
      ofPixels data signs background (labels.pixelsWhere fun label => label = k + 1) := by
  let account (p : Pixel rows cols) : Option Nat :=
    if labels.get p = 0 then none else some (labels.get p - 1)
  have haccount (p : Pixel rows cols) (k : Nat) : account p = some k ↔ labels.get p = k + 1 := by
    by_cases h : labels.get p = 0 <;> simp [account, h]
    omega
  have henter : enter data signs labels background = Tally.change account fun c p =>
      c.add background p.row.val p.col.val (data.get p) (signs.get p) := by
    funext cs p
    simp only [enter, Tally.change, account]
    cases labels.get p <;> rfl
  rw [ofLabels, henter, Tally.foldl_change]
  simp only [haccount]
  rfl

/-! ## The island of a census -/

variable {c : Census α} {label : Int} {barycentre : Bool}

theorem make_eq_ok {a b d e : Int} {box : BoundingBox} (h : BoundingBox.make a b d e = .ok box) :
    (box.minRow = a ∧ box.maxRow = b) ∧ box.minCol = d ∧ box.maxCol = e := by
  unfold BoundingBox.make at h
  split at h
  · cases h
    exact ⟨⟨rfl, rfl⟩, rfl, rfl⟩
  · cases h

/-- The position of a barycentre along one axis, if it is asked for and known. -/
def centred (c : Census α) (barycentre : Bool) (moment : α) (first : Nat) (low high : Int) : α :=
  if barycentre && decide (0.0 < c.weight) then centre c.weight moment first low high
  else Scalar.missing

/-- A census makes an island exactly if its bounds make a box. -/
theorem island_eq_ok_iff {i : Island α} : c.island label barycentre = .ok i ↔
    ∃ box, BoundingBox.make c.minRow c.maxRow c.minCol c.maxCol = .ok box ∧
      i = { label := label, sign := c.sign, box := box, npix := c.count
            extremum := c.extremum, column := c.extremumCol, row := c.extremumRow
            xbar := c.centred barycentre c.columnMoment c.firstCol c.minCol c.maxCol
            ybar := c.centred barycentre c.rowMoment c.firstRow c.minRow c.maxRow
            fit := none, fitFailed := false } := by
  unfold island
  constructor
  · intro h
    cases hb : BoundingBox.make c.minRow c.maxRow c.minCol c.maxCol with
    | error e =>
      rw [hb] at h
      cases h
    | ok box =>
      rw [hb] at h
      cases h
      exact ⟨box, rfl, rfl⟩
  · rintro ⟨box, hb, rfl⟩
    rw [hb]
    rfl

/-- What the island of a census takes over from it. -/
theorem island_eq_ok {i : Island α} (h : c.island label barycentre = .ok i) :
    (i.label = label ∧ i.sign = c.sign ∧ i.npix = c.count) ∧
      (i.fit = none ∧ i.fitFailed = false) ∧
      BoundingBox.make c.minRow c.maxRow c.minCol c.maxCol = .ok i.box := by
  obtain ⟨box, hb, rfl⟩ := island_eq_ok_iff.1 h
  exact ⟨⟨rfl, rfl, rfl⟩, ⟨rfl, rfl⟩, hb⟩

theorem exists_island (h : c.minRow ≤ c.maxRow ∧ c.minCol ≤ c.maxCol) :
    ∃ i, c.island label barycentre = .ok i := by
  unfold island
  rw [BoundingBox.make, dif_pos h]
  exact ⟨_, rfl⟩

theorem exists_island_ofPixels {ps : List (Pixel rows cols)} (h : ps ≠ []) :
    ∃ i, (ofPixels data signs background ps).island label barycentre = .ok i := by
  obtain ⟨p, hp⟩ := List.exists_mem_of_ne_nil ps h
  have hmem {x : Pixel rows cols → Int} : x p ∈ x '' {q | q ∈ ps} := ⟨p, hp, rfl⟩
  exact exists_island
    ⟨((ofPixels_minRow data signs background h).2 hmem).trans
      ((ofPixels_maxRow data signs background h).2 hmem),
    ((ofPixels_minCol data signs background h).2 hmem).trans
      ((ofPixels_maxCol data signs background h).2 hmem)⟩

end Census
end SkySources
