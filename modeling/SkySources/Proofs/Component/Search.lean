import Mathlib
import SkySources.Component
import SkySources.Proofs.Raster

/-!
# Components of a mask

`Linked c mask p q` says that marked neighbours lead from `p` to `q`; the
components of a mask are its classes. A labeller is only asked for numbers that
tell these classes apart (`Numbers`), in whatever order.

What is proved of the search by rounds:
  1. `settle_eq_iterate`: stopping early changes nothing, so the rounds are a
     plain iteration;
  2. `iterate_round_le`: after as many rounds as a walk has steps, a pixel knows
     of the position at the end of the walk. A walk between linked pixels can be
     made a path, and a path has fewer steps than the grid has pixels;
  3. `leaders_get_eq`: so two marked pixels know of the same position in the end
     exactly if they are linked, and `search_numbers` follows.
-/

namespace SkySources

namespace Pixel
variable {rows cols : Nat}

theorem shift?_eq_some {a b : Int} {p r : Pixel rows cols} :
    p.shift? a b = some r ↔ (r.row.val : Int) = p.row.val + a ∧ (r.col.val : Int) = p.col.val + b := by
  have hr := r.row.isLt
  have hc := r.col.isLt
  constructor
  · intro h
    simp only [shift?, Int.ofNat_eq_natCast] at h
    split at h
    · next hin =>
      rw [Option.some.injEq] at h
      subst h
      simp only
      omega
    · exact absurd h (by simp)
  · rintro ⟨h1, h2⟩
    simp only [shift?, Int.ofNat_eq_natCast, ← h1, ← h2]
    rw [dif_pos (by omega)]
    rfl

end Pixel

namespace Connectivity
variable {rows cols : Nat}

theorem mem_neighbours {c : Connectivity} {p r : Pixel rows cols} :
    r ∈ c.neighbours p ↔
      ((r.row.val : Int) - p.row.val, (r.col.val : Int) - p.col.val) ∈ c.steps := by
  simp only [neighbours, List.mem_filterMap, Pixel.shift?_eq_some]
  constructor
  · rintro ⟨s, hs, h1, h2⟩
    have e : s = ((r.row.val : Int) - p.row.val, (r.col.val : Int) - p.col.val) :=
      Prod.ext (by simp only; omega) (by simp only; omega)
    exact e ▸ hs
  · intro h
    exact ⟨_, h, by simp only; omega, by simp only; omega⟩

/-- Pixels that share an edge. -/
theorem mem_neighbours_edges {p r : Pixel rows cols} : r ∈ edges.neighbours p ↔
    ((r.row.val : Int) - p.row.val).natAbs + ((r.col.val : Int) - p.col.val).natAbs = 1 := by
  simp only [mem_neighbours, steps, List.mem_cons, Prod.mk.injEq, List.not_mem_nil, or_false]
  omega

/-- Pixels that share an edge or a corner. -/
theorem mem_neighbours_corners {p r : Pixel rows cols} : r ∈ corners.neighbours p ↔
    max ((r.row.val : Int) - p.row.val).natAbs ((r.col.val : Int) - p.col.val).natAbs = 1 := by
  rw [mem_neighbours]
  generalize (r.row.val : Int) - p.row.val = a
  generalize (r.col.val : Int) - p.col.val = b
  constructor
  · intro h
    simp only [steps, List.mem_cons, Prod.mk.injEq, List.not_mem_nil, or_false] at h
    rcases h with ⟨rfl, rfl⟩ | ⟨rfl, rfl⟩ | ⟨rfl, rfl⟩ | ⟨rfl, rfl⟩ | ⟨rfl, rfl⟩ | ⟨rfl, rfl⟩ |
      ⟨rfl, rfl⟩ | ⟨rfl, rfl⟩ <;> rfl
  · intro h
    have ha : a = -1 ∨ a = 0 ∨ a = 1 := by omega
    have hb : b = -1 ∨ b = 0 ∨ b = 1 := by omega
    rcases ha with rfl | rfl | rfl <;> rcases hb with rfl | rfl | rfl <;> revert h <;> decide

theorem neg_mem_steps {c : Connectivity} {a b : Int} : (a, b) ∈ c.steps → (-a, -b) ∈ c.steps := by
  have hall : ∀ s ∈ c.steps, (-s.1, -s.2) ∈ c.steps := by cases c <;> decide
  exact hall (a, b)

theorem neighbours_symm {c : Connectivity} {p r : Pixel rows cols} (h : r ∈ c.neighbours p) :
    p ∈ c.neighbours r := by
  rw [mem_neighbours] at h ⊢
  have := neg_mem_steps h
  rwa [Int.neg_sub, Int.neg_sub] at this

theorem ne_of_mem_neighbours {c : Connectivity} {p r : Pixel rows cols} (h : r ∈ c.neighbours p) :
    p ≠ r := by
  rintro rfl
  rw [mem_neighbours, Int.sub_self, Int.sub_self] at h
  cases c <;> simp [steps] at h

end Connectivity

namespace Component
variable {rows cols : Nat} {c : Connectivity} {mask : Grid rows cols Bool}

/-! ## Linked pixels -/

/-- Marked pixels that marked neighbours lead between. -/
inductive Linked (c : Connectivity) (mask : Grid rows cols Bool) :
    Pixel rows cols → Pixel rows cols → Prop where
  /-- A marked pixel is linked to itself. -/
  | refl (p : Pixel rows cols) : mask.get p = true → Linked c mask p p
  /-- The way goes on to a marked neighbour. -/
  | step (p q r : Pixel rows cols) : Linked c mask p q → r ∈ c.neighbours q →
      mask.get r = true → Linked c mask p r

/-- A labelling numbers the components of a mask: it is zero exactly off the
mask, its numbers do not exceed its count, and two marked pixels have the same
number exactly if they are linked. -/
structure Numbers (c : Connectivity) (mask : Grid rows cols Bool) (l : Labelling rows cols) :
    Prop where
  zero_iff : ∀ p, l.labels.get p = 0 ↔ mask.get p = false
  le_count : ∀ p, l.labels.get p ≤ l.count
  eq_iff : ∀ p q, mask.get p = true → mask.get q = true →
    (l.labels.get p = l.labels.get q ↔ Linked c mask p q)

/-- The marked pixels as a graph. -/
def graph (c : Connectivity) (mask : Grid rows cols Bool) : SimpleGraph (Pixel rows cols) where
  Adj p q := (mask.get p = true ∧ mask.get q = true) ∧ q ∈ c.neighbours p
  symm := ⟨fun _ _ h => ⟨h.1.symm, Connectivity.neighbours_symm h.2⟩⟩
  loopless := ⟨fun _ h => Connectivity.ne_of_mem_neighbours h.2 rfl⟩

namespace Linked

theorem left {p q : Pixel rows cols} (h : Linked c mask p q) : mask.get p = true := by
  induction h with
  | refl hp => exact hp
  | step _ _ _ _ _ ih => exact ih

theorem right {p q : Pixel rows cols} (h : Linked c mask p q) : mask.get q = true := by
  cases h with
  | refl hp => exact hp
  | step _ _ _ _ hm => exact hm

theorem iff_reachable {p q : Pixel rows cols} :
    Linked c mask p q ↔ mask.get p = true ∧ (graph c mask).Reachable p q := by
  constructor
  · intro h
    refine ⟨h.left, ?_⟩
    induction h with
    | refl _ => exact .refl _
    | step q r hq hr hm ih =>
      exact ih.trans (SimpleGraph.Adj.reachable ⟨⟨hq.right, hm⟩, hr⟩)
  · rintro ⟨hp, hr⟩
    rw [SimpleGraph.reachable_iff_reflTransGen] at hr
    induction hr with
    | refl => exact .refl _ hp
    | tail _ hadj ih => exact .step _ _ _ ih hadj.2 hadj.1.2

theorem symm {p q : Pixel rows cols} (h : Linked c mask p q) : Linked c mask q p :=
  iff_reachable.2 ⟨h.right, (iff_reachable.1 h).2.symm⟩

theorem trans {p q r : Pixel rows cols} (h : Linked c mask p q) (h' : Linked c mask q r) :
    Linked c mask p r :=
  iff_reachable.2 ⟨h.left, (iff_reachable.1 h).2.trans (iff_reachable.1 h').2⟩

end Linked

/-! ## Rounds -/

variable {known : Grid rows cols Nat}

theorem foldl_min_le (f : Pixel rows cols → Nat) : ∀ (qs : List (Pixel rows cols)) (n : Nat),
    qs.foldl (fun best q => min best (f q)) n ≤ n ∧
      ∀ q ∈ qs, qs.foldl (fun best q => min best (f q)) n ≤ f q
  | [], n => ⟨Nat.le_refl n, fun _ h => absurd h List.not_mem_nil⟩
  | q :: qs, n => by
    obtain ⟨hle, hmem⟩ := foldl_min_le f qs (min n (f q))
    refine ⟨Nat.le_trans hle (Nat.min_le_left _ _), ?_⟩
    intro r hr
    rcases List.mem_cons.mp hr with rfl | hr
    · exact Nat.le_trans hle (Nat.min_le_right _ _)
    · exact hmem r hr

theorem foldl_min_eq (f : Pixel rows cols → Nat) : ∀ (qs : List (Pixel rows cols)) (n : Nat),
    qs.foldl (fun best q => min best (f q)) n = n ∨
      ∃ q ∈ qs, qs.foldl (fun best q => min best (f q)) n = f q
  | [], _ => Or.inl rfl
  | q :: qs, n => by
    rw [List.foldl_cons]
    rcases foldl_min_eq f qs (min n (f q)) with h | ⟨r, hr, h⟩
    · rcases Nat.le_total n (f q) with hn | hn
      · exact Or.inl (by rw [h, Nat.min_eq_left hn])
      · exact Or.inr ⟨q, List.mem_cons_self, by rw [h, Nat.min_eq_right hn]⟩
    · exact Or.inr ⟨r, List.mem_cons_of_mem q hr, h⟩

theorem round_get (p : Pixel rows cols) : (round c mask known).get p = least c mask known p := by
  rw [round, Grid.get_ofFn]

theorem least_le_self (p : Pixel rows cols) : least c mask known p ≤ known.get p := by
  unfold least
  split
  · exact (foldl_min_le known.get _ _).1
  · exact Nat.le_refl _

theorem least_le_neighbour {p q : Pixel rows cols} (h : (graph c mask).Adj p q) :
    least c mask known p ≤ known.get q := by
  rw [least, if_pos h.1.1]
  exact (foldl_min_le known.get _ _).2 q (List.mem_filter.mpr ⟨h.2, h.1.2⟩)

/-- What a pixel knows after a round, it or a neighbour in the mask knew before. -/
theorem least_eq (p : Pixel rows cols) : least c mask known p = known.get p ∨
    ∃ q, (graph c mask).Adj p q ∧ least c mask known p = known.get q := by
  unfold least
  split
  · next hp =>
    rcases foldl_min_eq known.get ((c.neighbours p).filter mask.get) (known.get p) with h | ⟨q, hq, h⟩
    · exact Or.inl h
    · rw [List.mem_filter] at hq
      exact Or.inr ⟨q, ⟨⟨hp, hq.2⟩, hq.1⟩, h⟩
  · exact Or.inl rfl

/-- Once a round changes nothing, no round does. -/
theorem settle_eq_iterate (fuel : Nat) (known : Grid rows cols Nat) :
    settle c mask fuel known = (round c mask)^[fuel] known := by
  induction fuel generalizing known with
  | zero => rfl
  | succ n ih =>
    rw [settle]
    split
    · next h => rw [Function.iterate_fixed h]
    · rw [ih, Function.iterate_succ_apply]

/-- The positions that are known at the start: one's own. -/
def start : Grid rows cols Nat := Grid.ofFn Pixel.index

/-- Every known position is that of a linked pixel. -/
theorem iterate_round_linked (n : Nat) (p : Pixel rows cols) (hp : mask.get p = true) :
    ∃ q, Linked c mask p q ∧ ((round c mask)^[n] start).get p = q.index := by
  induction n generalizing p with
  | zero => exact ⟨p, .refl p hp, by simp [start]⟩
  | succ n ih =>
    rw [Function.iterate_succ_apply', round_get]
    rcases @least_eq _ _ c mask ((round c mask)^[n] start) p with h | ⟨r, hr, h⟩
    · rw [h]
      exact ih p hp
    · obtain ⟨q, hq, hk⟩ := ih r hr.1.2
      refine ⟨q, Linked.trans ?_ hq, by rw [h, hk]⟩
      exact .step p p r (.refl p hp) hr.2 hr.1.2

theorem iterate_round_anti {m n : Nat} (h : m ≤ n) (p : Pixel rows cols) :
    ((round c mask)^[n] known).get p ≤ ((round c mask)^[m] known).get p := by
  induction n, h using Nat.le_induction with
  | base => exact Nat.le_refl _
  | succ n _ ih =>
    rw [Function.iterate_succ_apply', round_get]
    exact Nat.le_trans (least_le_self p) ih

theorem iterate_round_le {p q : Pixel rows cols} (w : (graph c mask).Walk p q) :
    ((round c mask)^[w.length] start).get p ≤ q.index := by
  induction w with
  | nil => simp [start]
  | cons hadj w ih =>
    rw [SimpleGraph.Walk.length_cons, Function.iterate_succ_apply', round_get]
    exact Nat.le_trans (least_le_neighbour hadj) ih

/-! ## Leaders -/

theorem leaders_get_le {p q : Pixel rows cols} (h : Linked c mask p q) :
    (leaders c mask).get p ≤ q.index := by
  obtain ⟨w, hw⟩ := (Linked.iff_reachable.1 h).2.exists_isPath
  have hlen := hw.length_lt
  rw [Pixel.card_eq] at hlen
  rw [leaders, settle_eq_iterate]
  exact Nat.le_trans (iterate_round_anti (Nat.le_of_lt hlen) p) (iterate_round_le w)

theorem leaders_linked {p : Pixel rows cols} (hp : mask.get p = true) :
    ∃ q, Linked c mask p q ∧ (leaders c mask).get p = q.index := by
  rw [leaders, settle_eq_iterate]
  exact iterate_round_linked (rows * cols) p hp

theorem leaders_get_eq {p q : Pixel rows cols} (hp : mask.get p = true) (hq : mask.get q = true) :
    (leaders c mask).get p = (leaders c mask).get q ↔ Linked c mask p q := by
  obtain ⟨a, ha, hpa⟩ := leaders_linked (c := c) hp
  obtain ⟨b, hb, hqb⟩ := leaders_linked (c := c) hq
  constructor
  · intro h
    rw [hpa, hqb] at h
    rw [Pixel.index_injective h] at ha
    exact ha.trans hb.symm
  · intro h
    apply Nat.le_antisymm
    · rw [hqb]
      exact leaders_get_le (h.trans hb)
    · rw [hpa]
      exact leaders_get_le (h.symm.trans ha)

/-- The leader of a component leads itself. -/
theorem leaders_leader {p q : Pixel rows cols} (h : Linked c mask p q)
    (hq : (leaders c mask).get p = q.index) : (leaders c mask).get q = q.index := by
  rw [← hq]
  exact ((leaders_get_eq h.left h.right).2 h).symm

theorem search_numbers (c : Connectivity) (mask : Grid rows cols Bool) :
    Numbers c mask (search c mask) := by
  -- every leader of a marked pixel is among those that are numbered
  have hmem (p : Pixel rows cols) (hp : mask.get p = true) : (leaders c mask).get p ∈
      ((Pixel.raster rows cols).filter
        fun q => mask.get q && (leaders c mask).get q == q.index).map Pixel.index := by
    obtain ⟨q, hpq, hq⟩ := leaders_linked (c := c) hp
    rw [hq, List.mem_map]
    refine ⟨q, List.mem_filter.mpr ⟨Pixel.mem_raster q, ?_⟩, rfl⟩
    simp [hpq.right, leaders_leader hpq hq]
  constructor
  · intro p
    cases hp : mask.get p <;> simp [search, hp]
  · intro p
    simp only [search, Grid.get_ofFn]
    split
    · next hp => exact List.idxOf_lt_length_of_mem (hmem p hp)
    · exact Nat.zero_le _
  · intro p q hp hq
    simp only [search, Grid.get_ofFn, hp, hq, if_true, Nat.add_right_cancel_iff]
    rw [List.idxOf_inj (hmem p hp)]
    exact leaders_get_eq hp hq

end Component
end SkySources
