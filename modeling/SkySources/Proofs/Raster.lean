import Mathlib
import SkySources.Grid

/-!
# Raster order

Raster order counts the pixels of a grid from zero without a gap: the positions
of the pixels in raster order are `0, 1, 2, …` (`raster_map_index`). So a pixel
is known by its position, no pixel comes twice, and a value of a grid is met
first at the first pixel that has it (`idxOf_toList`). Lists of pixels in raster order
are known by their members (`eq_of_pairwise_of_mem_iff`), and labelled pixels are as many
as there are of each label (`sum_ncard`).
-/

namespace SkySources

/-- Lists in the same order that have the same members are equal. -/
theorem eq_of_pairwise_of_mem_iff {β : Type} {r : β → β → Prop} {xs ys : List β}
    (hasymm : ∀ a ∈ xs, ∀ b ∈ xs, r a b → ¬r b a) (hxs : xs.Pairwise r) (hys : ys.Pairwise r)
    (hmem : ∀ a, a ∈ xs ↔ a ∈ ys) : xs = ys := by
  have hne {a b : β} (ha : a ∈ xs) (hb : b ∈ xs) (hab : r a b) : a ≠ b := by
    rintro rfl
    exact hasymm a ha a ha hab hab
  have hnodup : xs.Nodup := hxs.imp_of_mem fun ha hb hab => hne ha hb hab
  have hnodup' : ys.Nodup :=
    hys.imp_of_mem fun ha hb hab => hne ((hmem _).2 ha) ((hmem _).2 hb) hab
  refine List.Perm.eq_of_pairwise ?_ hxs hys ((List.perm_ext_iff_of_nodup hnodup hnodup').2 hmem)
  intro a b ha hb hab hba
  exact absurd hba (hasymm a ha b ((hmem b).2 hb) hab)

namespace Pixel
variable {rows cols : Nat}

theorem index_div (p : Pixel rows cols) : p.index / cols = p.row.val := by
  have hc := p.col.isLt
  rw [index, Nat.mul_comm, Nat.mul_add_div (by omega), Nat.div_eq_of_lt hc, Nat.add_zero]

theorem index_injective {p q : Pixel rows cols} (h : p.index = q.index) : p = q := by
  have hrow : p.row.val = q.row.val := by rw [← index_div, ← index_div, h]
  have hcol : p.col.val = q.col.val := by
    rw [index, index, hrow] at h
    omega
  cases p; cases q
  simp only [mk.injEq]
  exact ⟨Fin.ext hrow, Fin.ext hcol⟩

/-- The positions in a grid of rows of equal length, row by row. -/
theorem flatMap_range (n m : Nat) :
    (List.range n).flatMap (fun r => (List.range m).map fun c => r * m + c) = List.range (n * m) := by
  induction n with
  | zero => simp
  | succ n ih =>
    rw [List.range_succ, List.flatMap_append, ih, Nat.succ_mul, List.range_add]
    simp

theorem raster_map_index (rows cols : Nat) :
    (raster rows cols).map index = List.range (rows * cols) := by
  rw [← flatMap_range, ← List.map_coe_finRange_eq_range (n := rows),
    ← List.map_coe_finRange_eq_range (n := cols)]
  simp only [raster, List.map_flatMap, List.flatMap_map, List.map_map, Function.comp_def, index]

theorem raster_nodup (rows cols : Nat) : (raster rows cols).Nodup := by
  apply List.Nodup.of_map index
  rw [raster_map_index]
  exact List.nodup_range

theorem raster_length (rows cols : Nat) : (raster rows cols).length = rows * cols := by
  rw [← List.length_map index, raster_map_index, List.length_range]

theorem raster_pairwise (rows cols : Nat) :
    (raster rows cols).Pairwise fun p q => p.index < q.index := by
  rw [← List.pairwise_map, raster_map_index]
  exact List.pairwise_lt_range

/-- A pixel stands in raster order at its own position. -/
theorem raster_getElem?_index (p : Pixel rows cols) : (raster rows cols)[p.index]? = some p := by
  have hget : ((raster rows cols).map index)[p.index]? = some p.index := by
    rw [raster_map_index, List.getElem?_range p.index_lt]
  rw [List.getElem?_map, Option.map_eq_some_iff] at hget
  obtain ⟨q, hq, hqp⟩ := hget
  rw [hq, index_injective hqp]

instance : Fintype (Pixel rows cols) :=
  ⟨⟨raster rows cols, raster_nodup rows cols⟩, fun p => mem_raster p⟩

theorem card_eq (rows cols : Nat) : Fintype.card (Pixel rows cols) = rows * cols :=
  raster_length rows cols

end Pixel

namespace Grid
variable {rows cols : Nat} {α β : Type}

theorem ext_get {g h : Grid rows cols α} (e : ∀ p, g.get p = h.get p) : g = h := by
  cases g with
  | mk a =>
    cases h with
    | mk b =>
      congr 1
      apply Vector.ext
      intro i hi
      apply Vector.ext
      intro j hj
      exact e ⟨⟨i, hi⟩, ⟨j, hj⟩⟩

theorem mem_toList {g : Grid rows cols α} {a : α} : a ∈ g.toList ↔ ∃ p, g.get p = a := by
  simp [toList, Pixel.mem_raster]

theorem mem_pixelsWhere {g : Grid rows cols α} {test : α → Bool} {p : Pixel rows cols} :
    p ∈ g.pixelsWhere test ↔ test (g.get p) = true := by
  simp [pixelsWhere, Pixel.mem_raster]

theorem map_get_map (f : α → β) (g : Grid rows cols α) (ps : List (Pixel rows cols)) :
    ps.map (g.map f).get = (ps.map g.get).map f := by
  rw [List.map_map]
  exact List.map_congr_left fun p _ => get_map f g p

theorem toList_map (f : α → β) (g : Grid rows cols α) : (g.map f).toList = g.toList.map f :=
  map_get_map f g _

/-- As many pixels are listed as have a cell that passes the test. -/
theorem length_pixelsWhere (g : Grid rows cols α) (test : α → Bool) :
    (g.pixelsWhere test).length = {p | test (g.get p) = true}.ncard := by
  have hnodup : (g.pixelsWhere test).Nodup := (Pixel.raster_nodup rows cols).filter _
  have hset : {p | test (g.get p) = true} = ↑(g.pixelsWhere test).toFinset := by
    ext p
    simp only [Set.mem_ofPred_eq, List.coe_toFinset, mem_pixelsWhere]
  rw [hset, Set.ncard_coe_finset, List.toFinset_card_of_nodup hnodup]

/-- The pixels with the labels up to some number, label by label. -/
theorem sum_ncard (labels : Grid rows cols Nat) (n : Nat) :
    ((List.range n).map fun k => {p | labels.get p = k + 1}.ncard).sum =
      {p | labels.get p ≠ 0 ∧ labels.get p ≤ n}.ncard := by
  induction n with
  | zero =>
    have hempty : {p | labels.get p ≠ 0 ∧ labels.get p ≤ 0} = ∅ := by
      ext p
      simp
    rw [hempty, Set.ncard_empty]
    rfl
  | succ n ih =>
    have hsplit : {p | labels.get p ≠ 0 ∧ labels.get p ≤ n + 1} =
        {p | labels.get p ≠ 0 ∧ labels.get p ≤ n} ∪ {p | labels.get p = n + 1} := by
      ext p
      simp only [Set.mem_ofPred_eq, Set.mem_union]
      omega
    have hdisjoint : Disjoint {p | labels.get p ≠ 0 ∧ labels.get p ≤ n}
        {p | labels.get p = n + 1} := by
      rw [Set.disjoint_left]
      intro p hp hp'
      have hle := hp.2
      have heq : labels.get p = n + 1 := hp'
      omega
    rw [List.range_succ, List.map_append, List.sum_append, ih, List.map_singleton,
      List.sum_singleton, hsplit, Set.ncard_union_eq hdisjoint]

/-- The first place of a value in raster order is the position of the first
pixel that has it. -/
theorem idxOf_toList {g : Grid rows cols Nat} {p : Pixel rows cols}
    (h : ∀ q, g.get q = g.get p → p.index ≤ q.index) : g.toList.idxOf (g.get p) = p.index := by
  have hlen : p.index < g.toList.length := by
    rw [toList, List.length_map, Pixel.raster_length]
    exact p.index_lt
  rw [List.idxOf, List.findIdx_eq hlen]
  have hat (q : Pixel rows cols) (hq : q.index < g.toList.length) : g.toList[q.index] = g.get q := by
    apply Option.some.inj
    rw [← List.getElem?_eq_getElem, toList, List.getElem?_map, Pixel.raster_getElem?_index]
    rfl
  refine ⟨by rw [hat p hlen]; exact beq_self_eq_true _, ?_⟩
  intro j hj
  have hjn : j < (Pixel.raster rows cols).length := by
    rw [Pixel.raster_length]
    exact Nat.lt_trans hj p.index_lt
  let q := (Pixel.raster rows cols)[j]
  have hq : q.index = j := by
    apply Option.some.inj
    rw [← Option.map_some (f := Pixel.index), ← List.getElem?_eq_getElem hjn, ← List.getElem?_map,
      Pixel.raster_map_index, List.getElem?_range (by rwa [Pixel.raster_length] at hjn)]
  have hv : g.toList[j] = g.get q := by
    rw [← hat q (hq ▸ Nat.lt_trans hj hlen)]
    simp only [hq]
  rw [hv, beq_eq_false_iff_ne]
  intro hqp
  have := h q hqp
  omega

end Grid
end SkySources
