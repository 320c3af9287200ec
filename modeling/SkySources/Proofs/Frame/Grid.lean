import SkySources.Proofs.Raster

/-!
# Grids with a frame

A frame adds rows and columns around a grid. The pixels of the grid keep their order
in the larger one, and what is looked for inside the frame is found there in the same
order.

What is proved:
  1. `index_framed_lt`: raster order is kept;
  2. `eq_framed_iff`: a larger grid is a framed one if it agrees inside and is the same
     everywhere outside;
  3. `filter_raster_framed`: pixels of the larger grid that only occur inside are the
     moved pixels of the grid itself.
-/

namespace SkySources

/-- So many rows and columns are added on each side. -/
structure Frame where
  (top bottom left right : Nat)

/-- A pixel of a grid with a frame. -/
abbrev FramedPixel (f : Frame) (rows cols : Nat) : Type :=
  Pixel (f.top + rows + f.bottom) (f.left + cols + f.right)

/-- A grid with a frame. -/
abbrev FramedGrid (f : Frame) (rows cols : Nat) (α : Type) : Type :=
  Grid (f.top + rows + f.bottom) (f.left + cols + f.right) α

variable {f : Frame} {rows cols : Nat} {α β : Type}

namespace Pixel
variable {p q : Pixel rows cols} {r : FramedPixel f rows cols}

/-- The pixel inside a frame. -/
def framed (f : Frame) (p : Pixel rows cols) : FramedPixel f rows cols :=
  ⟨⟨f.top + p.row.val, by omega⟩, ⟨f.left + p.col.val, by omega⟩⟩

/-- The pixel without the frame, if it lies inside. -/
def unframed? (r : FramedPixel f rows cols) : Option (Pixel rows cols) :=
  if h : (f.top ≤ r.row.val ∧ r.row.val < f.top + rows) ∧
      f.left ≤ r.col.val ∧ r.col.val < f.left + cols then
    some ⟨⟨r.row.val - f.top, by omega⟩, ⟨r.col.val - f.left, by omega⟩⟩
  else none

@[simp] theorem framed_row (f : Frame) (p : Pixel rows cols) :
    (p.framed f).row.val = f.top + p.row.val := rfl
@[simp] theorem framed_col (f : Frame) (p : Pixel rows cols) :
    (p.framed f).col.val = f.left + p.col.val := rfl

theorem ext_val (hr : p.row.val = q.row.val) (hc : p.col.val = q.col.val) : p = q := by
  cases p
  cases q
  exact congrArg₂ Pixel.mk (Fin.ext hr) (Fin.ext hc)

theorem framed_injective (h : p.framed f = q.framed f) : p = q := by
  have hr := congrArg (fun r => r.row.val) h
  have hc := congrArg (fun r => r.col.val) h
  simp only [framed_row, framed_col] at hr hc
  exact ext_val (by omega) (by omega)

@[simp] theorem framed_inj : p.framed f = q.framed f ↔ p = q :=
  ⟨framed_injective, congrArg (framed f)⟩

theorem unframed?_eq_some_iff : r.unframed? = some p ↔ p.framed f = r := by
  unfold unframed?
  constructor
  · intro h
    split at h
    · cases h
      apply ext_val
      · show f.top + (r.row.val - f.top) = r.row.val
        omega
      · show f.left + (r.col.val - f.left) = r.col.val
        omega
    · cases h
  · rintro rfl
    rw [dif_pos (by simp only [framed_row, framed_col]; omega), Option.some.injEq]
    apply ext_val
    · show f.top + p.row.val - f.top = p.row.val
      omega
    · show f.left + p.col.val - f.left = p.col.val
      omega

/-- Raster order goes by rows, and by columns in a row. -/
theorem index_lt_iff : p.index < q.index ↔
    p.row.val < q.row.val ∨ p.row.val = q.row.val ∧ p.col.val < q.col.val := by
  have hp := p.col.isLt
  have hq := q.col.isLt
  unfold index
  rcases Nat.lt_trichotomy p.row.val q.row.val with h | h | h
  · have := Nat.mul_le_mul_right cols h
    rw [Nat.succ_mul] at this
    omega
  · rw [h]
    omega
  · have := Nat.mul_le_mul_right cols h
    rw [Nat.succ_mul] at this
    omega

@[simp] theorem index_framed_lt : (p.framed f).index < (q.framed f).index ↔ p.index < q.index := by
  rw [index_lt_iff, index_lt_iff]
  simp only [framed_row, framed_col]
  omega

@[simp] theorem index_framed_le : (p.framed f).index ≤ (q.framed f).index ↔ p.index ≤ q.index := by
  rw [← Nat.not_lt, index_framed_lt, Nat.not_lt]

/-- What only occurs inside the frame occurs there in raster order. -/
theorem filter_raster_framed {test : Pixel rows cols → Bool}
    {test' : FramedPixel f rows cols → Bool}
    (hin : ∀ p, test' (p.framed f) = test p)
    (hout : ∀ r, (∀ p : Pixel rows cols, p.framed f ≠ r) → test' r = false) :
    (raster _ _).filter test' = ((raster rows cols).filter test).map (framed f) := by
  -- both lists are in raster order, so it is enough to compare their members
  apply eq_of_pairwise_of_mem_iff (r := fun p q => p.index < q.index)
  · intro p _ q _
    exact Nat.lt_asymm
  · exact (raster_pairwise _ _).filter _
  · rw [List.pairwise_map]
    exact ((raster_pairwise rows cols).filter _).imp index_framed_lt.2
  · intro r
    simp only [List.mem_filter, List.mem_map, mem_raster, true_and]
    constructor
    · intro hr
      by_cases hp : ∃ p : Pixel rows cols, p.framed f = r
      · obtain ⟨p, rfl⟩ := hp
        exact ⟨p, hin p ▸ hr, rfl⟩
      · rw [hout r (not_exists.1 hp)] at hr
        cases hr
    · rintro ⟨p, hp, rfl⟩
      rwa [hin p]

end Pixel

namespace Grid
variable {g : Grid rows cols α} {g' : FramedGrid f rows cols α} {o : α}

/-- The grid with a frame of equal cells. -/
def framed (f : Frame) (o : α) (g : Grid rows cols α) : FramedGrid f rows cols α :=
  ofFn fun r => (r.unframed?.map g.get).getD o

@[simp] theorem get_framed (p : Pixel rows cols) : (g.framed f o).get (p.framed f) = g.get p := by
  rw [framed, get_ofFn, Pixel.unframed?_eq_some_iff.2 rfl]
  rfl

theorem get_framed_outside {r : FramedPixel f rows cols}
    (h : ∀ p : Pixel rows cols, p.framed f ≠ r) :
    (g.framed f o).get r = o := by
  have hnone : r.unframed? = (none : Option (Pixel rows cols)) :=
    Option.eq_none_iff_forall_ne_some.2 fun p hp => h p (Pixel.unframed?_eq_some_iff.1 hp)
  rw [framed, get_ofFn, hnone]
  rfl

/-- A cell unlike the frame lies inside. -/
theorem exists_framed {r : FramedPixel f rows cols} (h : (g.framed f o).get r ≠ o) :
    ∃ p : Pixel rows cols, p.framed f = r := by
  by_contra hp
  exact h (get_framed_outside (not_exists.1 hp))

/-- A grid is framed if it agrees inside and is the same everywhere outside. -/
theorem eq_framed_iff : g' = g.framed f o ↔ (∀ p, g'.get (p.framed f) = g.get p) ∧
    ∀ r, (∀ p : Pixel rows cols, p.framed f ≠ r) → g'.get r = o := by
  constructor
  · rintro rfl
    exact ⟨get_framed, fun r => get_framed_outside⟩
  · rintro ⟨hin, hout⟩
    apply ext_get
    intro r
    by_cases hp : ∃ p : Pixel rows cols, p.framed f = r
    · obtain ⟨p, rfl⟩ := hp
      rw [hin, get_framed]
    · rw [hout r (not_exists.1 hp), get_framed_outside (not_exists.1 hp)]

theorem map_framed (h : α → β) : (g.framed f o).map h = (g.map h).framed f (h o) := by
  rw [eq_framed_iff]
  constructor
  · intro p
    rw [get_map, get_map, get_framed]
  · intro r hr
    rw [get_map, get_framed_outside hr]

theorem pixelsWhere_framed {test : α → Bool} (ho : test o = false) :
    (g.framed f o).pixelsWhere test = (g.pixelsWhere test).map (Pixel.framed f) := by
  apply Pixel.filter_raster_framed
  · intro p
    rw [get_framed]
  · intro r hr
    rw [get_framed_outside hr, ho]

end Grid
end SkySources
