import Mathlib
import SkySources.Proofs.Run.Exports

/-!
# The plane that is loaded

The entries of shaped data stand one row after the other, the last position the fastest
(`at?`). Of an astronomical array the axes of length one are dropped, and of those that are
left the outermost one goes until there are two. So the rows and the columns of an image only
stay what they are if there are two at least of each.

What is proved:
  1. `place?_replicate`, `at?_take`: the first of the cells are the entries at the first
     position of the outer axes;
  2. `ofAstronomical_eq`: of the axes that are longer than one the last two stay;
  3. `isFirstPlane_iff`: when this is the first plane of the array, and `exists_image`: it is
     then an image with the entries of the array;
  4. `load_plane`: so for every file of an array;
  5. `load_strip`: an image with a single row is loaded as a list.
-/

namespace SkySources

/-! ## Entries of shaped data -/

namespace Shaped
variable {α β : Type} {s : Shaped α}

/-- The place among the cells of the entry at some positions, one for each axis. -/
def place? : List Nat → List Nat → Option Nat
  | [], [] => some 0
  | n :: inner, i :: rest =>
    if i < n then (place? inner rest).map fun k => i * inner.prod + k else none
  | _, _ => none

/-- The entry at some positions. -/
def at? (s : Shaped α) (positions : List Nat) : Option α :=
  (place? s.shape positions).bind fun k => s.cells[k]?

/-- There is a cell for each entry. -/
def IsFull (s : Shaped α) : Prop := s.cells.length = s.shape.prod

theorem place?_lt {shape positions : List Nat} {k : Nat} (h : place? shape positions = some k) :
    k < shape.prod := by
  induction shape, positions using place?.induct generalizing k with
  | case1 =>
    cases h
    exact Nat.one_pos
  | case2 n inner i rest hi ih =>
    rw [place?, if_pos hi] at h
    obtain ⟨j, hj, rfl⟩ := Option.map_eq_some_iff.1 h
    rw [List.prod_cons]
    calc i * inner.prod + j < i * inner.prod + inner.prod := Nat.add_lt_add_left (ih hj) _
      _ = (i + 1) * inner.prod := (Nat.succ_mul _ _).symm
      _ ≤ n * inner.prod := Nat.mul_le_mul_right _ hi
  | case3 n inner i rest hi =>
    rw [place?, if_neg hi] at h
    cases h
  | case4 shape positions h₁ h₂ =>
    rw [place?] at h
    · cases h
    · exact h₁
    · exact h₂

/-- At the first position of the outer axes an entry stands where it does without them. -/
theorem place?_replicate {leading : List Nat} (h : ∀ n ∈ leading, 1 ≤ n)
    (inner positions : List Nat) :
    place? (leading ++ inner) (List.replicate leading.length 0 ++ positions) =
      place? inner positions := by
  induction leading with
  | nil => rfl
  | cons n leading ih =>
    have hn : 0 < n := h n List.mem_cons_self
    rw [List.length_cons, List.replicate_succ, List.cons_append, List.cons_append, place?,
      if_pos hn, ih fun m hm => h m (List.mem_cons_of_mem _ hm)]
    simp

theorem place?_pair {rows cols row col : Nat} (hrow : row < rows) (hcol : col < cols) :
    place? [rows, cols] [row, col] = some (row * cols + col) := by
  simp [place?, hrow, hcol]

theorem at?_map (f : α → β) (s : Shaped α) (positions : List Nat) :
    (s.map f).at? positions = (s.at? positions).map f := by
  simp only [at?, map, Option.map_bind]
  congr 1
  funext k
  exact List.getElem?_map ..

/-- The entries of fewer axes are those at the first position of the others. -/
theorem at?_take {leading inner : List Nat} (hshape : s.shape = leading ++ inner)
    (h : ∀ n ∈ leading, 1 ≤ n) (positions : List Nat) :
    at? ⟨inner, s.cells.take inner.prod⟩ positions =
      s.at? (List.replicate leading.length 0 ++ positions) := by
  rw [at?, at?, hshape, place?_replicate h]
  cases hplace : place? inner positions with
  | none => rfl
  | some k => exact List.getElem?_take_of_lt (place?_lt hplace)

theorem isFull_map {f : α → β} (h : s.IsFull) : (s.map f).IsFull := (List.length_map f).trans h

/-- As many cells as fewer axes need are left. -/
theorem isFull_take {inner : List Nat} (h : s.IsFull) (hle : inner.prod ≤ s.shape.prod) :
    IsFull ⟨inner, s.cells.take inner.prod⟩ :=
  (List.length_take).trans (min_eq_left (hle.trans h.ge))

/-- The image of full data of two axes. -/
theorem image?_of_isFull {rows cols : Nat} (hshape : s.shape = [rows, cols]) (hfull : s.IsFull) :
    ∃ grid : Grid rows cols α, s.image? = some ⟨grid⟩ ∧
      ∀ p : Pixel rows cols, s.at? [p.row.val, p.col.val] = some (grid.get p) := by
  have hlength : s.cells.length = rows * cols := by
    rw [hfull, hshape, List.prod_pair]
  refine ⟨Grid.ofFn fun p => s.cells.get ⟨p.index, hlength ▸ p.index_lt⟩, ?_, fun p => ?_⟩
  · rw [image?, hshape]
    exact dif_pos hlength
  · rw [at?, hshape, place?_pair p.row.isLt p.col.isLt, Grid.get_ofFn]
    exact List.getElem?_eq_getElem _

end Shaped

namespace Data

theorem at?_ofDoubles (values : Shaped Float) (positions : List Nat) :
    (ofDoubles values).values.at? positions = (values.at? positions).map .float :=
  Shaped.at?_map _ _ _

theorem at?_doubles (d : Data) (positions : List Nat) :
    d.doubles.at? positions = (d.values.at? positions).map ElementType.floatOf :=
  Shaped.at?_map _ _ _

end Data

namespace ImageFile

/-! ## One axis after the other -/

/-- The axes that stay: of those that are longer than one the last two. -/
def planeShape (shape : List Nat) : List Nat := (shape.filter (· ≠ 1)).rtake 2

theorem planeShape_sublist (shape : List Nat) : (planeShape shape).Sublist shape :=
  (List.drop_sublist _ _).trans List.filter_sublist

/-- Rows and columns stay if they are longer than one. -/
theorem planeShape_append {rows cols : Nat} (hrows : rows ≠ 1) (hcols : cols ≠ 1)
    (leading : List Nat) : planeShape (leading ++ [rows, cols]) = [rows, cols] := by
  simp [planeShape, List.rtake, hrows, hcols]

/-- A report for each number of axes on the way down to two. -/
def planeEvents (axes : Nat) : List (Event Float) :=
  (List.range' 3 (axes - 2)).reverse.map .planeTaken

theorem planeEvents_succ {axes : Nat} (h : 2 ≤ axes) :
    planeEvents (axes + 1) = .planeTaken (axes + 1) :: planeEvents axes := by
  have hcount : axes + 1 - 2 = (axes - 2) + 1 := by omega
  have hlast : 3 + 1 * (axes - 2) = axes + 1 := by omega
  rw [planeEvents, planeEvents, hcount, List.range'_concat, hlast, List.reverse_append]
  rfl

theorem rtake_two_cons {n : Nat} {inner : List Nat} (h : 2 ≤ inner.length) :
    (n :: inner).rtake 2 = inner.rtake 2 := by
  have hcount : inner.length + 1 - 2 = (inner.length - 2) + 1 := by omega
  rw [List.rtake, List.rtake, List.length_cons, hcount, List.drop_succ_cons]

/-- Without the outermost axis the first of the cells stay. -/
theorem first_cons {α : Type} (n : Nat) (inner : List Nat) (cells : List α) :
    Shaped.first ⟨n :: inner, cells⟩ = ⟨inner, cells.take inner.prod⟩ := by
  rw [List.prod_eq_foldl]
  rfl

/-- Of two axes or fewer none goes. -/
theorem plane_of_le {s : Shaped Float} (h : s.shape.length ≤ 2) (hfull : s.IsFull) :
    ((⟨s.shape.rtake 2, s.cells.take (s.shape.rtake 2).prod⟩ : Shaped Float),
      planeEvents s.shape.length) = (s, []) := by
  have hshape : s.shape.rtake 2 = s.shape := by
    rw [List.rtake, Nat.sub_eq_zero_of_le h, List.drop_zero]
  rw [hshape, List.take_of_length_le hfull.le, planeEvents, Nat.sub_eq_zero_of_le h]
  rfl

/-- The outermost axis goes until there are two. -/
theorem firstPlane_eq {fuel : Nat} {s : Shaped Float} (hfuel : s.shape.length ≤ fuel + 2)
    (hfull : s.IsFull) (hpos : ∀ n ∈ s.shape, 1 ≤ n) :
    firstPlane fuel s =
      (⟨s.shape.rtake 2, s.cells.take (s.shape.rtake 2).prod⟩, planeEvents s.shape.length) := by
  induction fuel generalizing s with
  | zero => rw [plane_of_le hfuel hfull, firstPlane]
  | succ fuel ih =>
    rw [firstPlane]
    split_ifs with h
    · rw [plane_of_le h hfull]
    obtain ⟨_ | ⟨n, inner⟩, cells⟩ := s
    · exact absurd (Nat.zero_le 2) h
    have hinner : ∀ m ∈ inner, 1 ≤ m := fun m hm => hpos m (List.mem_cons_of_mem _ hm)
    have hlength : 2 ≤ inner.length := Nat.le_of_lt_succ (Nat.lt_of_not_le h)
    have hfull' : Shaped.IsFull ⟨inner, cells.take inner.prod⟩ := by
      refine Shaped.isFull_take hfull ?_
      rw [List.prod_cons]
      exact Nat.le_mul_of_pos_left _ (hpos n List.mem_cons_self)
    -- what is taken off the first plane are its first cells, and so the first of all
    have hle : (inner.rtake 2).prod ≤ inner.prod :=
      Nat.le_of_dvd (List.prod_pos hinner) (List.drop_sublist _ _).prod_dvd_prod
    rw [first_cons, ih (Nat.le_of_succ_le_succ hfuel) hfull' hinner]
    rw [rtake_two_cons hlength, List.take_take, min_eq_left hle, List.length_cons,
      planeEvents_succ hlength]

/-! ## The image in an array -/

/-- Axes of length one do not count. -/
theorem squeezed_isFull {α : Type} {s : Shaped α} (h : s.IsFull) : s.squeezed.IsFull := by
  have hprod (shape : List Nat) : (shape.filter (· ≠ 1)).prod = shape.prod := by
    induction shape with
    | nil => rfl
    | cons n inner ih =>
      rw [List.filter_cons]
      split_ifs with hn
      · rw [List.prod_cons, List.prod_cons, ih]
      · rw [List.prod_cons, ih, show n = 1 by simpa using hn, Nat.one_mul]
  exact h.trans (hprod s.shape).symm

/-- Of the axes that are longer than one the last two stay, with the first of the cells. -/
theorem ofAstronomical_eq {d : Data} (hfull : d.values.IsFull)
    (hpos : ∀ n ∈ d.values.shape, 1 ≤ n) :
    ofAstronomical d =
      (Data.ofDoubles ⟨planeShape d.values.shape,
        d.doubles.cells.take (planeShape d.values.shape).prod⟩,
      planeEvents (d.values.shape.filter (· ≠ 1)).length) := by
  have hdoubles : d.doubles.IsFull := Shaped.isFull_map hfull
  have hlength : d.doubles.squeezed.shape.length ≤ d.values.shape.length :=
    List.length_filter_le _ _
  have hpos' : ∀ n ∈ d.doubles.squeezed.shape, 1 ≤ n :=
    fun n hn => hpos n (List.mem_of_mem_filter hn)
  rw [ofAstronomical,
    firstPlane_eq (Nat.le_add_right_of_le hlength) (squeezed_isFull hdoubles) hpos']
  rfl

/-- Data are the plane of an array at the first position of so many outer axes: they have its
rows and its columns, and the doubles of its entries in their places. -/
structure IsFirstPlane (plane : Data) (d : Data) (axes rows cols : Nat) : Prop where
  element : plane.element = .float 64
  shape : plane.values.shape = [rows, cols]
  full : plane.values.IsFull
  entry : ∀ row col, plane.values.at? [row, col] =
    (d.values.at? (List.replicate axes 0 ++ [row, col])).map fun c =>
      .float (ElementType.floatOf c)

/-- The first plane is an image with the entries of the array, unless it is empty. -/
theorem IsFirstPlane.exists_image {plane d : Data} {axes rows cols : Nat}
    (h : IsFirstPlane plane d axes rows cols) (hne : rows * cols ≠ 0) :
    ∃ grid : Grid rows cols Float, plane.image? = .ok ⟨grid⟩ ∧
      ∀ p : Pixel rows cols,
        (d.values.at? (List.replicate axes 0 ++ [p.row.val, p.col.val])).map
          ElementType.floatOf = some (grid.get p) := by
  have hfull : plane.doubles.IsFull := Shaped.isFull_map h.full
  obtain ⟨grid, hgrid, hentry⟩ := Shaped.image?_of_isFull (s := plane.doubles) h.shape hfull
  refine ⟨grid, ?_, fun p => ?_⟩
  · rw [Data.image?, hgrid, h.element]
    exact (if_neg hne).trans (if_neg Bool.false_ne_true)
  · rw [← hentry p, Data.at?_doubles, h.entry, Option.map_map]
    rfl

/-- The first plane is what is made of an array if its rows and its columns are among the axes
that are longer than one, and only then. -/
theorem isFirstPlane_iff {d : Data} {leading : List Nat} {rows cols : Nat}
    (hshape : d.values.shape = leading ++ [rows, cols]) (hfull : d.values.IsFull)
    (hpos : ∀ n ∈ d.values.shape, 1 ≤ n) :
    IsFirstPlane (ofAstronomical d).1 d leading.length rows cols ↔ 2 ≤ rows ∧ 2 ≤ cols := by
  have hmem {n : Nat} (hn : n ∈ [rows, cols]) : 1 ≤ n :=
    hpos n (hshape ▸ List.mem_append_right _ hn)
  have hrows : 1 ≤ rows := hmem (by simp)
  have hcols : 1 ≤ cols := hmem (by simp)
  rw [ofAstronomical_eq hfull hpos]
  constructor
  · intro h
    have hplane : planeShape d.values.shape = [rows, cols] := h.shape
    have hlong {n : Nat} (hn : n ∈ [rows, cols]) : n ≠ 1 := by
      rw [← hplane] at hn
      simpa using List.of_mem_filter (List.mem_of_mem_drop hn)
    have hrows' : rows ≠ 1 := hlong (by simp)
    have hcols' : cols ≠ 1 := hlong (by simp)
    omega
  · rintro ⟨hrows', hcols'⟩
    have hplane : planeShape d.values.shape = [rows, cols] := by
      rw [hshape, planeShape_append (by omega) (by omega)]
    have hle : [rows, cols].prod ≤ d.values.shape.prod :=
      Nat.le_of_dvd (List.prod_pos hpos) (hplane ▸ planeShape_sublist _).prod_dvd_prod
    have hleading : ∀ n ∈ leading, 1 ≤ n :=
      fun n hn => hpos n (hshape ▸ List.mem_append_left _ hn)
    rw [hplane]
    refine ⟨rfl, rfl, ?_, fun row col => ?_⟩
    · exact Shaped.isFull_map (Shaped.isFull_take (Shaped.isFull_map hfull) hle)
    · change (Data.ofDoubles _).values.at? _ = _
      rw [Data.at?_ofDoubles, Shaped.at?_take (s := d.doubles) hshape hleading,
        Data.at?_doubles, Option.map_map]
      rfl

/-! ## Loading -/

theorem isFull_ofBytes {order : ByteOrder} {t : ElementType} {shape : List Nat}
    {bytes : ByteArray} {start : Nat} {d : Data}
    (h : Data.ofBytes? order t shape bytes start = some d) : d.values.IsFull := by
  rw [Data.ofBytes?] at h
  extract_lets at h
  split_ifs at h
  cases h
  rw [Shaped.IsFull, List.length_map, List.length_range, List.prod_eq_foldl]

theorem isFull_scaled {d : Data} (h : d.values.IsFull) (scaling : AstronomicalFile.Scaling) :
    (scaling.apply d).values.IsFull := by
  rw [AstronomicalFile.Scaling.apply]
  split_ifs
  · exact h
  split
  · split_ifs <;> exact Shaped.isFull_map h
  · exact Shaped.isFull_map h
  · exact Shaped.isFull_map h

/-- What is read from bytes is full. -/
theorem isFull_read {bytes : ByteArray} {d : Data} (h : AstronomicalFile.read bytes = .ok d) :
    d.values.IsFull := by
  have hbehind {header : AstronomicalFile.Header}
      (h : AstronomicalFile.dataBehind header bytes = .ok d) : d.values.IsFull := by
    unfold AstronomicalFile.dataBehind at h
    split at h
    · cases h
    split_ifs at h
    split at h
    · cases h
    next hbytes =>
      cases h
      exact isFull_scaled (isFull_ofBytes hbytes) _
  unfold AstronomicalFile.read at h
  split at h
  · split_ifs at h
    exact hbehind h
  · cases h

/-- An item holds an astronomical array: as data with a cell for each entry, or as the bytes of
a file. -/
inductive Holds : Item → Data → Prop where
  | data {d : Data} : d.values.IsFull → Holds (.data .astronomical d) d
  | bytes {t : String} {d : Data} :
      (archiveStarts .astronomical).any (fun start => t.startsWith start) = false →
      AstronomicalFile.read t.toUTF8 = .ok d → Holds (.text t) d

namespace Holds
variable {item : Item} {d : Data}

theorem full (h : Holds item d) : d.values.IsFull := by
  cases h with
  | data hfull => exact hfull
  | bytes _ hread => exact isFull_read hread

theorem ofItem_eq (h : Holds item d) : ofItem .astronomical item = .ok (ofAstronomical d) := by
  cases h with
  | data _ => rfl
  | bytes hstart hread =>
    rw [ofItem, ofText, hstart, hread]
    rfl

end Holds

/-- The image of an array is loaded from the file that holds it. -/
theorem load_eq {s : Store} {name : String} {item : Item} {d : Data} (hname : name ≠ "")
    (hformat : name.endsWith ".npy" = false) (hread : s.read (Path.ofText name) = .ok item)
    (hitem : Holds item d) : load s name = .ok (ofAstronomical d) := by
  have hastronomical : format name = .astronomical := if_neg (Bool.eq_false_iff.1 hformat)
  refine Run.load_eq_ok_iff.2 ⟨hname, item, hread, ?_⟩
  rw [hastronomical]
  exact hitem.ofItem_eq

/-- Every file of an array of two axes or more is loaded, unless its name says that its data are
plain. Of the axes that are longer than one the last two stay, with the first of the cells, and
each other one of them is reported. That is the first plane of the array unless there is a
single row or a single column. -/
theorem load_plane {s : Store} {name : String} {item : Item} {d : Data} {leading : List Nat}
    {rows cols : Nat} (hname : name ≠ "") (hformat : name.endsWith ".npy" = false)
    (hread : s.read (Path.ofText name) = .ok item) (hitem : Holds item d)
    (hshape : d.values.shape = leading ++ [rows, cols]) (hpos : ∀ n ∈ d.values.shape, 1 ≤ n) :
    ∃ plane : Data,
      load s name = .ok (plane, planeEvents (d.values.shape.filter (· ≠ 1)).length) ∧
      plane.values.shape = (d.values.shape.filter (· ≠ 1)).rtake 2 ∧
      plane.values.cells = (d.values.cells.take plane.values.shape.prod).map (fun c =>
        .float (ElementType.floatOf c)) ∧
      (IsFirstPlane plane d leading.length rows cols ↔ 2 ≤ rows ∧ 2 ≤ cols) := by
  have hplane := isFirstPlane_iff hshape hitem.full hpos
  have hload := load_eq hname hformat hread hitem
  rw [ofAstronomical_eq hitem.full hpos] at hplane hload
  refine ⟨_, hload, rfl, ?_, hplane⟩
  change ((d.values.cells.map _).take _).map _ = _
  rw [← List.map_take, List.map_map]
  rfl

/-- A single file of an array. -/
def fileOf (d : Data) : Store := ⟨[(["image.fits"], .data .astronomical d)]⟩

theorem read_fileOf (d : Data) :
    (fileOf d).read (Path.ofText "image.fits") = .ok (.data .astronomical d) := by
  have htext : Path.ofText "image.fits" = ⟨false, ["image.fits"]⟩ := by
    simp +decide [Path.ofText, String.splitOn, String.splitOnAux]
  have hplace : (fileOf d).locate (Path.ofText "image.fits") = .ok ["image.fits"] := by
    rw [htext]
    exact Run.locate_here (by decide) (by simp [Path.isBroken]) (by decide +kernel)
  exact Store.read_eq_ok_iff.2 ⟨_, hplace, rfl⟩

/-- Two images of two rows and two columns, with an axis of length one between. -/
def stack : Data := ⟨.signed 32, ⟨[2, 1, 2, 2], [0, 1, 2, 3, 4, 5, 6, 7].map .whole⟩⟩

/-- The first of the images is loaded, and one axis is reported. -/
theorem load_plane_stack : ("image.fits" ≠ "" ∧ "image.fits".endsWith ".npy" = false ∧
    (fileOf stack).read (Path.ofText "image.fits") = .ok (.data .astronomical stack) ∧
    Holds (.data .astronomical stack) stack ∧ stack.values.shape = [2, 1] ++ [2, 2] ∧
    ∀ n ∈ stack.values.shape, 1 ≤ n) ∧
    ∃ plane : Data, load (fileOf stack) "image.fits" = .ok (plane, [.planeTaken 3]) ∧
      plane.values.cells = ([0, 1, 2, 3].map Float.ofInt).map .float ∧
      IsFirstPlane plane stack 2 2 2 := by
  have hname : "image.fits" ≠ "" := by decide
  have hformat : "image.fits".endsWith ".npy" = false := by decide +kernel
  have hholds : Holds (.data .astronomical stack) stack := .data rfl
  have hshape : stack.values.shape = [2, 1] ++ [2, 2] := rfl
  have hpos : ∀ n ∈ stack.values.shape, 1 ≤ n := by decide
  refine ⟨⟨hname, hformat, read_fileOf stack, hholds, hshape, hpos⟩, ?_⟩
  obtain ⟨plane, hload, hplane, hcells, hfirst⟩ :=
    load_plane hname hformat (read_fileOf stack) hholds hshape hpos
  refine ⟨plane, hload, ?_, hfirst.2 (by decide)⟩
  rw [hcells, hplane]
  rfl

/-- An image with a single row. -/
def strip : Data := ⟨.float 64, ⟨[1, 3], [.float 1.0, .float 2.0, .float 3.0]⟩⟩

/-- The single row is loaded as a list of its entries, and not as an image. -/
theorem load_strip : "image.fits".endsWith ".npy" = false ∧
    (fileOf strip).read (Path.ofText "image.fits") = .ok (.data .astronomical strip) ∧
    Holds (.data .astronomical strip) strip ∧
    ∃ loaded, load (fileOf strip) "image.fits" = .ok loaded ∧ loaded.1.values.shape = [3] ∧
      loaded.1.image? = .error (.shape [3]) ∧ ¬IsFirstPlane loaded.1 strip 0 1 3 := by
  have hformat : "image.fits".endsWith ".npy" = false := by decide +kernel
  have hholds : Holds (.data .astronomical strip) strip := .data rfl
  refine ⟨hformat, read_fileOf strip, hholds, _,
    load_eq (by decide) hformat (read_fileOf strip) hholds, rfl, rfl, fun h => ?_⟩
  have hshape : [3] = [1, 3] := h.shape
  exact absurd hshape (by decide)

end ImageFile
end SkySources
