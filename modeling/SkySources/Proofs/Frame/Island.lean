import SkySources.Proofs.Exact
import SkySources.Proofs.Frame.Component
import SkySources.Proofs.Island.Found

/-!
# Islands inside a frame

With a frame around the image a census goes over the same pixels in the same order,
each so many rows and columns further on. Its sums count positions from the first pixel,
so they are the same, and its positions move with the pixels.

What is proved, with `moved` for what lies inside the frame:
  1. `add_moved`, `ofPixels_framed`: one more pixel, and by induction all pixels of a label;
  2. `moves_withoutCentre`: an island is moved but for the barycentre, which may be rounded;
  3. `moves_exact`: in exact numbers the barycentre is moved as well;
  4. `ofMarks_framed`: so all islands are.
-/

namespace SkySources

variable {α : Type} {f : Frame} {rows cols : Nat}

/-- The box inside a frame. -/
def BoundingBox.moved (f : Frame) (b : BoundingBox) : BoundingBox where
  minRow := f.top + b.minRow
  maxRow := f.top + b.maxRow
  minCol := f.left + b.minCol
  maxCol := f.left + b.maxCol
  rows_le := Int.add_le_add_left b.rows_le _
  cols_le := Int.add_le_add_left b.cols_le _

namespace Island

/-- An island that has no fit, inside a frame. -/
def moved [Scalar α] (f : Frame) (i : Island α) : Island α :=
  { i with
    box := i.box.moved f
    column := f.left + i.column
    row := f.top + i.row
    xbar := i.xbar + Scalar.ofNat f.left
    ybar := i.ybar + Scalar.ofNat f.top }

end Island

variable [Scalar α]

/-! ## Censuses -/

namespace Census

/-- The census of pixels inside a frame. -/
def moved (f : Frame) (c : Census α) : Census α :=
  { c with
    minRow := f.top + c.minRow
    maxRow := f.top + c.maxRow
    minCol := f.left + c.minCol
    maxCol := f.left + c.maxCol
    extremumRow := f.top + c.extremumRow
    extremumCol := f.left + c.extremumCol
    firstRow := f.top + c.firstRow
    firstCol := f.left + c.firstCol }

variable (c : Census α) (background value : α) (row col : Nat) (sign : Int)

omit [Scalar α] in
theorem opened_moved : (c.moved f).opened (f.top + row) (f.left + col) =
    (c.opened row col).moved f := by
  unfold opened
  change (if c.count = 0 then _ else _) = _
  split <;> rfl

theorem raised_moved : (c.moved f).raised (f.top + row) (f.left + col) value sign =
    (c.raised row col value sign).moved f := by
  unfold raised
  change (if c.count = 0 ∨ Scalar.ofInt sign * c.extremum < Scalar.ofInt sign * value then _
    else _) = _
  split <;> rfl

theorem counted_moved : (c.moved f).counted background (f.top + row) (f.left + col) value sign =
    (c.counted background row col value sign).moved f := by
  -- positions count from the first pixel, which has moved as well
  have hoffset (n first k : Nat) : Int.ofNat (n + k) - Int.ofNat (n + first) =
      Int.ofNat k - Int.ofNat first := by
    simp only [Int.ofNat_eq_natCast]
    omega
  have hmin (n : Nat) (low : Int) (k : Nat) : min (n + low) ((n + k : Nat) : Int) =
      n + min low k := by omega
  have hmax (n : Nat) (high : Int) (k : Nat) : max (n + high) ((n + k : Nat) : Int) =
      n + max high k := by omega
  simp only [counted, moved, hoffset, hmin, hmax]

theorem add_moved : (c.moved f).add background (f.top + row) (f.left + col) value sign =
    (c.add background row col value sign).moved f := by
  rw [add, add, opened_moved, raised_moved, counted_moved]

/-- The first pixel sets all bounds, whatever the size of the grid. -/
theorem add_empty_framed (p : Pixel rows cols) :
    (empty (f.top + rows + f.bottom) (f.left + cols + f.right)).add background
        (f.top + p.row.val) (f.left + p.col.val) value sign =
      ((empty rows cols).add background p.row.val p.col.val value sign).moved f := by
  have hrow := p.row.isLt
  have hcol := p.col.isLt
  simp only [add, opened, raised, counted, moved, empty, if_true, true_or, Census.mk.injEq,
    Int.sub_self, and_true]
  omega

variable {data : Grid rows cols α} {data' : FramedGrid f rows cols α} {signs : Grid rows cols Int}
  {background}

/-- The census of the same pixels inside a frame. -/
theorem ofPixels_framed {ps : List (Pixel rows cols)} (hne : ps ≠ [])
    (hdata : ∀ p ∈ ps, data'.get (p.framed f) = data.get p) :
    ofPixels data' (signs.framed f 0) background (ps.map (Pixel.framed f)) =
      (ofPixels data signs background ps).moved f := by
  induction ps using List.reverseRecOn with
  | nil => exact absurd rfl hne
  | append_singleton ps p ih =>
    have hp := hdata p (by simp)
    rw [List.map_append, List.map_singleton, ofPixels_concat, ofPixels_concat, hp,
      Grid.get_framed]
    -- the frame is larger than the grid, so the census of no pixel is not moved
    by_cases h : ps = []
    · subst h
      exact add_empty_framed background (data.get p) (signs.get p) p
    · rw [ih h fun q hq => hdata q (List.mem_append_left _ hq)]
      exact add_moved _ background (data.get p) p.row.val p.col.val (signs.get p)

end Census

/-! ## Islands -/

/-- What is looked at of an island moves with its pixels. -/
structure Island.Moves (f : Frame) (view : Island α → Island α) : Prop where
  label_eq : ∀ i, (view i).label = i.label
  npix_eq : ∀ i, (view i).npix = i.npix
  island : ∀ {c : Census α} {label : Int} {barycentre : Bool} {i i' : Island α},
    c.island label barycentre = .ok i → (c.moved f).island label barycentre = .ok i' →
    view i' = view (i.moved f)

/-- Islands that move with their pixels are kept or dropped as before. -/
theorem Island.Moves.map_keepLarge {view : Island α → Island α} (hview : Moves f view)
    (minArea : Int) {islands islands' : List (Island α)}
    (h : islands'.map view = islands.map fun i => view (i.moved f)) :
    (Island.keepLarge minArea islands').map view =
      (Island.keepLarge minArea islands).map fun i => view (i.moved f) := by
  let large (i : Island α) : Bool := decide (minArea ≤ i.npix)
  have hlarge (i : Island α) : large (view i) = decide (minArea ≤ i.npix) :=
    congrArg (fun n => decide (minArea ≤ n)) (hview.npix_eq i)
  calc (Island.keepLarge minArea islands').map view
      = (islands'.map view).filter large := by
        rw [List.filter_map]
        simp only [Function.comp_def, hlarge]
        rfl
    _ = (islands.map fun i => view (i.moved f)).filter large := by rw [h]
    _ = (Island.keepLarge minArea islands).map fun i => view (i.moved f) := by
        rw [List.filter_map]
        simp only [Function.comp_def, hlarge]
        rfl

theorem BoundingBox.make_moved {a b d e : Int} {box : BoundingBox}
    (h : make a b d e = .ok box) :
    make (f.top + a) (f.top + b) (f.left + d) (f.left + e) = .ok (box.moved f) := by
  unfold make at h ⊢
  split at h
  · next hle =>
    cases h
    rw [dif_pos (by omega)]
    rfl
  · cases h

/-- An island is moved but for its barycentre. -/
theorem Island.moves_withoutCentre : Moves (α := α) f withoutCentre where
  label_eq _ := rfl
  npix_eq _ := rfl
  island := by
    intro c label barycentre i i' h h'
    obtain ⟨box, hb, rfl⟩ := Census.island_eq_ok_iff.1 h
    obtain ⟨box', hb', rfl⟩ := Census.island_eq_ok_iff.1 h'
    have hbox : box' = box.moved f :=
      Except.ok.inj (hb'.symm.trans (BoundingBox.make_moved hb))
    rw [hbox]
    rfl

section Exact
open Exact

theorem Census.centred_moved (c : Census Exact) (barycentre : Bool) (moment : Exact)
    (n first : Nat) (low high : Int) :
    (c.moved f).centred barycentre moment (n + first) (n + low) (n + high) =
      c.centred barycentre moment first low high + Scalar.ofNat n := by
  have hbound (k : Int) : (Scalar.ofInt ((n : Int) + k) : Exact) = Scalar.ofInt k + real n := by
    rw [ofInt_eq, ofInt_eq, add_real, Int.cast_add, Int.cast_natCast, add_comm]
  have hcentre : centre c.weight moment (n + first) (n + low) (n + high) =
      centre c.weight moment first low high + Scalar.ofNat n := by
    rw [centre, centre, hbound, hbound, ofNat_eq, ofNat_eq, ofNat_eq, Nat.cast_add, real_add_add]
    exact clamp_add_real _ _ _ _
  show (if barycentre && decide (0.0 < c.weight) then _ else _) =
    (if barycentre && decide (0.0 < c.weight) then _ else _) + _
  split
  · exact hcentre
  · rw [ofNat_eq]
    rfl

/-- In exact numbers an island is moved with its barycentre. -/
theorem Island.moves_exact : Moves (α := Exact) f id where
  label_eq _ := rfl
  npix_eq _ := rfl
  island := by
    intro c label barycentre i i' h h'
    have hsame := moves_withoutCentre.island h h'
    have hxbar : i'.xbar = i.xbar + Scalar.ofNat f.left := by
      obtain ⟨_, _, rfl⟩ := Census.island_eq_ok_iff.1 h
      obtain ⟨_, _, rfl⟩ := Census.island_eq_ok_iff.1 h'
      exact Census.centred_moved c barycentre c.columnMoment f.left c.firstCol c.minCol c.maxCol
    have hybar : i'.ybar = i.ybar + Scalar.ofNat f.top := by
      obtain ⟨_, _, rfl⟩ := Census.island_eq_ok_iff.1 h
      obtain ⟨_, _, rfl⟩ := Census.island_eq_ok_iff.1 h'
      exact Census.centred_moved c barycentre c.rowMoment f.top c.firstRow c.minRow c.maxRow
    calc i' = { i'.withoutCentre with xbar := i'.xbar, ybar := i'.ybar } := rfl
      _ = { (i.moved f).withoutCentre with xbar := i'.xbar, ybar := i'.ybar } := by rw [hsame]
      _ = i.moved f := by
        rw [hxbar, hybar]
        rfl

end Exact

namespace IslandMap
variable {c : Connectivity} {data : Grid rows cols α} {data' : FramedGrid f rows cols α}
  {marks : Grid rows cols Mark} {background : α} {barycentre : Bool} {m : IslandMap rows cols α}

/-- The mark of a pixel in the frame. -/
def blank : Mark := ⟨.background, false⟩

/-- The census of a label that is in use. -/
theorem census_framed {labels : Grid rows cols Nat} {k : Nat} (hk : k ≠ 0)
    (hused : ∃ p, labels.get p = k)
    (hdata : ∀ p, labels.get p = k → data'.get (p.framed f) = data.get p) :
    census data' ((marks.framed f blank).map fun m => m.sign.toInt) background
        (labels.framed f 0) k =
      (census data (marks.map fun m => m.sign.toInt) background labels k).moved f := by
  have hpixels : (labels.framed f 0).pixelsWhere (fun label => label = k) =
      (labels.pixelsWhere fun label => label = k).map (Pixel.framed f) :=
    Grid.pixelsWhere_framed (decide_eq_false hk.symm)
  unfold census
  rw [hpixels, Grid.map_framed]
  apply Census.ofPixels_framed
  · obtain ⟨p, hp⟩ := hused
    exact List.ne_nil_of_mem (Grid.mem_pixelsWhere.2 (decide_eq_true hp))
  · intro p hp
    rw [Grid.mem_pixelsWhere, decide_eq_true_iff] at hp
    exact hdata p hp

/-- The islands of marks with a frame around them. -/
theorem ofMarks_framed {view : Island α → Island α} (hview : Island.Moves f view)
    (hdata : ∀ p, (marks.get p).sign ≠ .background → data'.get (p.framed f) = data.get p)
    (h : ofMarks c data marks background barycentre = .ok m) :
    ∃ m', ofMarks c data' (marks.framed f blank) background barycentre = .ok m' ∧
      m'.labels = m.labels.framed f 0 ∧
      m'.islands.map view = m.islands.map fun i => view (i.moved f) := by
  obtain ⟨m', h'⟩ := exists_ofMarks c data' (marks.framed f blank) background barycentre
  have hlabel : Component.label c (sides (marks.framed f blank)) (hits (marks.framed f blank)) =
      (Component.label c (sides marks) (hits marks)).framed f := by
    rw [sides, hits, Grid.map_framed, Grid.map_framed]
    exact Component.label_framed f c _ _
  have hlabels : m'.labels = m.labels.framed f 0 := by
    rw [labels_eq h', labels_eq h, hlabel]
    rfl
  have hlength : m'.islands.length = m.islands.length := by
    rw [islands_length h', islands_length h, hlabel]
    rfl
  refine ⟨m', h', hlabels, ?_⟩
  -- islands at the same place come from the censuses of the same label
  apply List.ext_getElem
  · rw [List.length_map, List.length_map, hlength]
  · intro k hk' hk
    rw [List.length_map] at hk hk'
    rw [List.getElem_map, List.getElem_map]
    have hi := getElem?_islands h (List.getElem?_eq_getElem hk)
    have hi' := getElem?_islands h' (List.getElem?_eq_getElem hk')
    have hmoved : census data' ((marks.framed f blank).map fun m => m.sign.toInt) background
        m'.labels (k + 1) =
          (census data (marks.map fun m => m.sign.toInt) background m.labels (k + 1)).moved f := by
      rw [hlabels]
      apply census_framed (Nat.succ_ne_zero k)
      · exact (((numbered h).used (k + 1)).2 ⟨Nat.succ_pos k, hk⟩).2
      · intro p hp
        apply hdata
        have hside := (((numbered h).labelled p).1 (hp ▸ Nat.succ_ne_zero k)).1
        rwa [sides, Grid.get_map] at hside
    rw [hmoved] at hi'
    exact hview.island hi hi'

end IslandMap
end SkySources
