import Mathlib
import SkySources.Proofs.Exact
import SkySources.Residuals

/-!
# Blocks of observations

Observations are taken as one block, or as one block for each run of equal rows. The
blocks of runs are the lists into which the observations fall where the row changes
(`blocks_eq`). So they cover the observations without a gap, each holds a single row, and
the row changes from each to the next (`LaidOut`).

What is proved:
  1. `spans_eq`, `blocks_eq`: the slices between changes of the row;
  2. `points_ofObservations`: the observations of all blocks are those that were given;
  3. `laidOut_ofObservations`: where rows are numbers, the blocks follow them.
-/

namespace SkySources

/-- The slice of a block: its first position, and the one behind its last. -/
def Block.slice {α : Type} (b : Block α) : Nat × Nat := (b.start, b.stop)

namespace Residuals

/-! ## Slices -/

section Slices
variable {α : Type}

/-- Blocks of some lists that stand one behind the other, from a position on. -/
def laidFrom (i : Nat) : List (List (Observation α)) → List (Block α)
  | [] => []
  | g :: gs => ⟨i, i + g.length, g⟩ :: laidFrom (i + g.length) gs

/-- Blocks follow one another without a gap from one position to another, and none of
them is empty. -/
inductive Tiles : Nat → List (Block α) → Nat → Prop where
  | nil (i : Nat) : Tiles i [] i
  | cons {b : Block α} {bs : List (Block α)} {stop : Nat} :
      b.start < b.stop → Tiles b.stop bs stop → Tiles b.start (b :: bs) stop

/-- Each of the blocks holds its slice of everything. -/
theorem part_laidFrom (front : List (Observation α)) (gs : List (List (Observation α))) :
    ∀ b ∈ laidFrom front.length gs, part b.slice (front ++ gs.flatten) = b.points := by
  induction gs generalizing front with
  | nil => exact fun b hb => absurd hb List.not_mem_nil
  | cons g gs ih =>
    intro b hb
    rcases List.mem_cons.1 hb with rfl | hb
    · rw [Block.slice, part, List.flatten_cons, ← List.append_assoc,
        List.take_append_of_le_length (by simp), ← List.length_append, List.take_length,
        List.drop_left]
    · rw [← List.length_append] at hb
      rw [List.flatten_cons, ← List.append_assoc]
      exact ih (front ++ g) b hb

theorem map_points_laidFrom (i : Nat) (gs : List (List (Observation α))) :
    (laidFrom i gs).map (·.points) = gs := by
  induction gs generalizing i with
  | nil => rfl
  | cons g gs ih => rw [laidFrom, List.map_cons, ih]

theorem tiles_laidFrom (i : Nat) {gs : List (List (Observation α))} (h : [] ∉ gs) :
    Tiles i (laidFrom i gs) (i + gs.flatten.length) := by
  induction gs generalizing i with
  | nil => exact .nil i
  | cons g gs ih =>
    rw [List.mem_cons, not_or] at h
    have hg : 0 < g.length := List.length_pos_iff.2 (Ne.symm h.1)
    have htail := ih (i + g.length) h.2
    rw [Nat.add_assoc, ← List.length_append, ← List.flatten_cons] at htail
    exact .cons (b := ⟨i, i + g.length, g⟩) (Nat.lt_add_of_pos_right hg) htail

end Slices

variable {α : Type} [Scalar α]

/-- The difference of the rows of two observations does not tell them apart. -/
def sameRow (a b : Observation α) : Bool := Scalar.sameValue (b.y - a.y) 0.0

/-- The slices between changes of the row, counted from a position. -/
def spans (i : Nat) (rows : List α) : List (Nat × Nat) :=
  (i :: cutsFrom i rows).zip (cutsFrom i rows ++ [i + rows.length])

theorem spans_turn {a b : Observation α} (h : sameRow a b = false) (i : Nat)
    (rest : List (Observation α)) : spans i ((a :: b :: rest).map (·.y)) =
      (i, i + 1) :: spans (i + 1) ((b :: rest).map (·.y)) := by
  have hcuts : cutsFrom i (a.y :: b.y :: rest.map (·.y)) =
      (i + 1) :: cutsFrom (i + 1) (b.y :: rest.map (·.y)) := by
    rw [cutsFrom]
    exact if_neg (Bool.eq_false_iff.1 h)
  simp only [spans, List.map_cons, hcuts, List.cons_append, List.zip_cons_cons, List.length_cons]
  congr 4
  omega

theorem spans_same {a b : Observation α} (h : sameRow a b = true) (i : Nat)
    (rest : List (Observation α)) {stop : Nat} {tail : List (Nat × Nat)}
    (htail : spans (i + 1) ((b :: rest).map (·.y)) = (i + 1, stop) :: tail) :
    spans i ((a :: b :: rest).map (·.y)) = (i, stop) :: tail := by
  have hcuts : cutsFrom i (a.y :: b.y :: rest.map (·.y)) =
      cutsFrom (i + 1) (b.y :: rest.map (·.y)) := by
    rw [cutsFrom]
    exact if_pos h
  have hlength : i + (a.y :: b.y :: rest.map (·.y)).length =
      i + 1 + (b.y :: rest.map (·.y)).length := by
    simp only [List.length_cons]
    omega
  simp only [spans, List.map_cons] at htail ⊢
  rw [hcuts, hlength]
  -- only the beginning of the first slice differs
  generalize cutsFrom (i + 1) (b.y :: rest.map (·.y)) = cuts at htail ⊢
  cases cuts with
  | nil =>
    obtain ⟨hstop, rfl⟩ := List.cons.inj htail
    cases hstop
    rfl
  | cons c cs =>
    obtain ⟨hstop, rfl⟩ := List.cons.inj htail
    cases hstop
    rfl

/-- Where the row does not change, the first of the lists grows. -/
theorem splitBy_same {a b : Observation α} (h : sameRow a b = true) (rest : List (Observation α)) :
    ∃ g gs, (b :: rest).splitBy sameRow = g :: gs ∧
      (a :: b :: rest).splitBy sameRow = (a :: g) :: gs := by
  obtain ⟨hflatten, hne, hchain, hturn⟩ := List.splitBy_eq_iff.1
    (rfl : (b :: rest).splitBy sameRow = _)
  cases hsplit : (b :: rest).splitBy sameRow with
  | nil => exact absurd (List.splitBy_eq_nil.1 hsplit) (List.cons_ne_nil b rest)
  | cons g gs =>
    rw [hsplit] at hflatten hne hchain hturn
    refine ⟨g, gs, rfl, List.splitBy_eq_iff.2 ⟨?_, ?_, ?_, ?_⟩⟩
    · rw [hflatten]
      rfl
    · rw [List.mem_cons, not_or] at hne ⊢
      exact ⟨(List.cons_ne_nil a g).symm, hne.2⟩
    · intro m hm
      rcases List.mem_cons.1 hm with rfl | hm
      · -- the list begins with the observation that has the same row
        have hg := hchain g List.mem_cons_self
        cases g with
        | nil => exact absurd List.mem_cons_self hne
        | cons c cs =>
          obtain ⟨rfl, _⟩ := List.cons.inj hflatten
          exact hg.cons_cons h
      · exact hchain m (List.mem_cons_of_mem g hm)
    · cases gs with
      | nil => exact List.isChain_singleton _
      | cons g' gs =>
        obtain ⟨⟨hg, hg', hlast⟩, htail⟩ := List.isChain_cons_cons.1 hturn
        refine List.isChain_cons_cons.2 ⟨⟨List.cons_ne_nil a g, hg', ?_⟩, htail⟩
        rwa [List.getLast_cons hg]

/-- The slices between changes of the row are those of the lists into which the
observations fall there. -/
theorem spans_eq (i : Nat) : ∀ {points : List (Observation α)}, points ≠ [] →
    spans i (points.map (·.y)) = (laidFrom i (points.splitBy sameRow)).map Block.slice
  | [], h => absurd rfl h
  | [a], _ => rfl
  | a :: b :: rest, _ => by
    have ih := spans_eq (i + 1) (List.cons_ne_nil b rest)
    cases h : sameRow a b with
    | false =>
      have hsplit : (a :: b :: rest).splitBy sameRow = [a] :: (b :: rest).splitBy sameRow :=
        List.splitBy_append_cons (l := [a]) rest fun x hx => by
          cases hx
          exact h
      rw [spans_turn h, hsplit, ih]
      rfl
    | true =>
      obtain ⟨g, gs, hsplit, hsplit'⟩ := splitBy_same h rest
      rw [hsplit, laidFrom, List.map_cons] at ih
      rw [spans_same h i rest ih, hsplit', laidFrom, List.map_cons, List.length_cons,
        Nat.add_right_comm, Nat.add_assoc]
      rfl

/-- With a block for each row, the blocks are the lists into which the observations fall
where the row changes. -/
theorem blocks_eq {d : Differencing} (hd : d.isSingleBlock = false)
    {points : List (Observation α)} (h : points ≠ []) :
    (ofObservations d points).blocks = laidFrom 0 (points.splitBy sameRow) := by
  have hranges : ranges d (points.map (·.y)) points.length = spans 0 (points.map (·.y)) := by
    rw [ranges, hd, spans, List.length_map, Nat.zero_add]
    rfl
  have hpart := part_laidFrom [] (points.splitBy sameRow)
  rw [List.nil_append, List.flatten_splitBy] at hpart
  rw [ofObservations, hranges, spans_eq 0 h, List.map_map]
  show (laidFrom 0 (points.splitBy sameRow)).map _ = _
  conv_rhs => rw [← List.map_id (laidFrom 0 (points.splitBy sameRow))]
  apply List.map_congr_left
  intro b hb
  show (⟨b.start, b.stop, part b.slice points⟩ : Block α) = b
  rw [hpart b hb]

/-- Whatever the layout, the blocks hold the observations in order. -/
theorem points_ofObservations (d : Differencing) (points : List (Observation α)) :
    (ofObservations d points).points = points := by
  cases hd : d.isSingleBlock with
  | true =>
    show ((ranges d (points.map (·.y)) points.length).map _).flatMap _ = points
    rw [ranges, hd]
    simp [part]
  | false =>
    by_cases h : points = []
    · subst h
      show ((ranges d [] 0).map _).flatMap _ = _
      rw [ranges, hd]
      rfl
    · rw [Residuals.points, blocks_eq hd h, List.flatMap_def, map_points_laidFrom,
        List.flatten_splitBy]

/-! ## Rows -/

/-- Blocks that follow the rows of observations: they cover all of them without a gap, each
holds a single row, and the row changes from each block to the next. -/
structure LaidOut (points : List (Observation α)) (blocks : List (Block α)) : Prop where
  tiles : Tiles 0 blocks points.length
  slice : ∀ b ∈ blocks, b.points = part b.slice points
  row : ∀ b ∈ blocks, ∀ o ∈ b.points, ∀ o' ∈ b.points, o.y = o'.y
  turn : blocks.IsChain fun b c => ∀ o ∈ b.points, ∀ o' ∈ c.points, o.y ≠ o'.y

section Exact
open Exact

theorem sameRow_iff {a b : Observation Exact} (ha : Scalar.isFinite a.y = true)
    (hb : Scalar.isFinite b.y = true) : sameRow a b = true ↔ a.y = b.y := by
  obtain ⟨u, hu⟩ := exists_real ha
  obtain ⟨v, hv⟩ := exists_real hb
  simp only [sameRow, Scalar.sameValue, hu, hv, sub_real, zero_eq, le_real, Bool.and_eq_true,
    decide_eq_true_eq, Exact.real.injEq]
  constructor
  · rintro ⟨hle, hge⟩
    linarith
  · rintro rfl
    simp

section SplitBy
variable {points : List (Observation Exact)} (hy : ∀ o ∈ points, Scalar.isFinite o.y = true)
include hy

theorem isFinite_of_mem_splitBy {m : List (Observation Exact)} (hm : m ∈ points.splitBy sameRow)
    {o : Observation Exact} (ho : o ∈ m) : Scalar.isFinite o.y = true := by
  apply hy
  rw [← List.flatten_splitBy sameRow points]
  exact List.mem_flatten_of_mem hm ho

/-- Each of the lists into which observations fall holds a single row. -/
theorem row_of_mem_splitBy {m : List (Observation Exact)} (hm : m ∈ points.splitBy sameRow) :
    ∀ o ∈ m, ∀ o' ∈ m, o.y = o'.y := by
  have hchain : m.IsChain fun a b => sameRow a b = true := List.isChain_of_mem_splitBy hm
  have hys : (m.map (·.y)).IsChain (· = ·) :=
    (List.isChain_map _).2 (hchain.imp_of_mem_imp fun a b ha hb hab =>
      (sameRow_iff (isFinite_of_mem_splitBy hy hm ha) (isFinite_of_mem_splitBy hy hm hb)).1 hab)
  -- neighbours have the same row, and so do any two
  have hall := (List.isChain_iff_pairwise.1 hys).forall_of_forall fun _ _ => rfl
  intro o ho o' ho'
  exact hall (List.mem_map_of_mem ho) (List.mem_map_of_mem ho')

/-- The row changes from each of the lists to the next. -/
theorem turn_splitBy :
    (points.splitBy sameRow).IsChain fun m n => ∀ o ∈ m, ∀ o' ∈ n, o.y ≠ o'.y := by
  refine (List.isChain_getLast_head_splitBy sameRow points).imp_of_mem_imp ?_
  intro m n hm hn h o ho o' ho' heq
  obtain ⟨hm', hn', hturn⟩ := h
  -- the last of one list and the first of the next one tell their rows apart
  have hl := List.getLast_mem hm'
  have hf := List.head_mem hn'
  rw [← Bool.not_eq_true, sameRow_iff (isFinite_of_mem_splitBy hy hm hl)
    (isFinite_of_mem_splitBy hy hn hf)] at hturn
  apply hturn
  calc (m.getLast hm').y = o.y := row_of_mem_splitBy hy hm _ hl o ho
    _ = o'.y := heq
    _ = (n.head hn').y := row_of_mem_splitBy hy hn o' ho' _ hf

/-- Where rows are numbers, the blocks follow them. -/
theorem laidOut_ofObservations {d : Differencing} (hd : d.isSingleBlock = false)
    (h : points ≠ []) : LaidOut points (ofObservations d points).blocks := by
  rw [blocks_eq hd h]
  have hflatten := List.flatten_splitBy sameRow points
  have hpoints := map_points_laidFrom 0 (points.splitBy sameRow)
  constructor
  · have htiles := tiles_laidFrom 0 (List.nil_notMem_splitBy sameRow points)
    rwa [hflatten, Nat.zero_add] at htiles
  · intro b hb
    have hpart := part_laidFrom [] (points.splitBy sameRow) b hb
    rwa [List.nil_append, hflatten, eq_comm] at hpart
  · intro b hb
    have hmem : b.points ∈ points.splitBy sameRow := by
      rw [← hpoints]
      exact List.mem_map_of_mem hb
    exact row_of_mem_splitBy hy hmem
  · have hturn := turn_splitBy hy
    rwa [← hpoints, List.isChain_map] at hturn

end SplitBy
end Exact

end Residuals
end SkySources
