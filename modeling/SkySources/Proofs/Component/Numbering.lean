import Mathlib
import SkySources.Proofs.Component.Search

/-!
# The numbers of components

`Numbered c signs detected l` says what the labels of marked pixels have to be:
which pixels have one, which pixels share one, and in which order the labels
follow each other. It does not speak of labellers, and it leaves no choice.

What is proved:
  1. `joined_iff`: joined pixels are those that are linked in the mask of their
     side, so being joined is an equivalence;
  2. `exists_isFirst`, `IsFirst.eq`: every component has one first pixel;
  3. `Numbered.get_le`: no label can come later in one labelling than in another;
  4. `Numbered.eq`: so there is only one way to number the components.
-/

namespace SkySources.Component
variable {rows cols : Nat} {c : Connectivity} {signs : Grid rows cols Sign}
  {detected : Grid rows cols Bool} {p q : Pixel rows cols}

/-! ## Joined pixels -/

theorem side_get {s : Sign} : (side s signs).get p = true ↔ signs.get p = s := by
  simp [side]

theorem Joined.sign_eq (h : Joined c signs p q) : signs.get q = signs.get p := by
  induction h with
  | refl _ => rfl
  | step _ _ _ _ hs ih => rw [hs, ih]

theorem Joined.left (h : Joined c signs p q) : signs.get p ≠ .background := by
  induction h with
  | refl hp => exact hp
  | step _ _ _ _ _ ih => exact ih

theorem Joined.right (h : Joined c signs p q) : signs.get q ≠ .background := by
  rw [h.sign_eq]
  exact h.left

/-- Joined pixels are those that are linked on their own side. -/
theorem joined_iff : Joined c signs p q ↔
    signs.get p ≠ .background ∧ Linked c (side (signs.get p) signs) p q := by
  constructor
  · intro h
    refine ⟨h.left, ?_⟩
    induction h with
    | refl _ => exact .refl p (side_get.2 rfl)
    | step q r hq hr hs ih => exact .step p q r ih hr (side_get.2 (by rw [hs, hq.sign_eq]))
  · rintro ⟨hp, h⟩
    induction h with
    | refl _ => exact .refl p hp
    | step q r hq hr hs ih =>
      exact .step p q r ih hr (by rw [side_get.1 hs, side_get.1 hq.right])

theorem Joined.symm (h : Joined c signs p q) : Joined c signs q p := by
  refine joined_iff.2 ⟨h.right, ?_⟩
  rw [h.sign_eq]
  exact (joined_iff.1 h).2.symm

theorem Joined.trans {r : Pixel rows cols} (h : Joined c signs p q) (h' : Joined c signs q r) :
    Joined c signs p r := by
  have hl := (joined_iff.1 h').2
  rw [h.sign_eq] at hl
  exact joined_iff.2 ⟨h.left, (joined_iff.1 h).2.trans hl⟩

/-! ## First pixels -/

/-- A pixel is the first of its component in raster order. -/
def IsFirst (c : Connectivity) (signs : Grid rows cols Sign) (p : Pixel rows cols) : Prop :=
  signs.get p ≠ .background ∧ ∀ q, Joined c signs p q → p.index ≤ q.index

theorem exists_isFirst (h : signs.get p ≠ .background) :
    ∃ q, Joined c signs p q ∧ IsFirst c signs q := by
  have hex : ∃ n q, Joined c signs p q ∧ q.index = n := ⟨p.index, p, .refl p h, rfl⟩
  classical
  obtain ⟨q, hq, hn⟩ := Nat.find_spec hex
  refine ⟨q, hq, hq.right, ?_⟩
  intro r hr
  rw [hn]
  exact Nat.find_min' hex ⟨r, hq.trans hr, rfl⟩

/-- The first pixel of a component is the only one. -/
theorem IsFirst.eq (hp : IsFirst c signs p) (hq : IsFirst c signs q) (h : Joined c signs p q) :
    p = q :=
  Pixel.index_injective (Nat.le_antisymm (hp.2 q h) (hq.2 p h.symm))

/-! ## What the labels have to be -/

/-- A labelling numbers the components that hold a detected pixel, from one on,
in the raster order of their first pixels. -/
structure Numbered (c : Connectivity) (signs : Grid rows cols Sign)
    (detected : Grid rows cols Bool) (l : Labelling rows cols) : Prop where
  /-- A pixel has a label if its component holds a detected pixel. -/
  labelled : ∀ p, l.labels.get p ≠ 0 ↔
    signs.get p ≠ .background ∧ ∃ q, Joined c signs p q ∧ detected.get q = true
  /-- Labelled pixels share a label if they are joined. -/
  shared : ∀ p q, l.labels.get p ≠ 0 → l.labels.get q ≠ 0 →
    (l.labels.get p = l.labels.get q ↔ Joined c signs p q)
  /-- The labels in use are the numbers from one to the count. -/
  used : ∀ k, (k ≠ 0 ∧ ∃ p, l.labels.get p = k) ↔ 1 ≤ k ∧ k ≤ l.count
  /-- The labels follow the first pixels of their components. -/
  ordered : ∀ p q, IsFirst c signs p → IsFirst c signs q → l.labels.get p ≠ 0 →
    l.labels.get q ≠ 0 → (l.labels.get p < l.labels.get q ↔ p.index < q.index)

namespace Numbered
variable {l l' : Labelling rows cols}

theorem le_count (h : Numbered c signs detected l) (p : Pixel rows cols) :
    l.labels.get p ≤ l.count := by
  by_cases hp : l.labels.get p = 0
  · rw [hp]
    exact Nat.zero_le _
  · exact ((h.used _).1 ⟨hp, p, rfl⟩).2

theorem ne_zero_iff (h : Numbered c signs detected l) (h' : Numbered c signs detected l') :
    l.labels.get p ≠ 0 ↔ l'.labels.get p ≠ 0 := by
  rw [h.labelled, h'.labelled]

/-- The label of a pixel is that of its whole component. -/
theorem eq_of_joined (h : Numbered c signs detected l) (hp : l.labels.get p ≠ 0)
    (hj : Joined c signs p q) : l.labels.get q ≠ 0 ∧ l.labels.get p = l.labels.get q := by
  obtain ⟨_, d, hd, hdet⟩ := (h.labelled p).1 hp
  have hq : l.labels.get q ≠ 0 := (h.labelled q).2 ⟨hj.right, d, hj.symm.trans hd, hdet⟩
  exact ⟨hq, (h.shared p q hp hq).2 hj⟩

/-- Two labellings put the labels of two pixels in the same order, also if they do
not label the same components. -/
theorem lt_iff {detected' : Grid rows cols Bool} (h : Numbered c signs detected l)
    (h' : Numbered c signs detected' l') (hp : l.labels.get p ≠ 0) (hq : l.labels.get q ≠ 0)
    (hp' : l'.labels.get p ≠ 0) (hq' : l'.labels.get q ≠ 0) :
    l.labels.get p < l.labels.get q ↔ l'.labels.get p < l'.labels.get q := by
  obtain ⟨a, hpa, ha⟩ := exists_isFirst (c := c) ((h.labelled p).1 hp).1
  obtain ⟨b, hqb, hb⟩ := exists_isFirst (c := c) ((h.labelled q).1 hq).1
  obtain ⟨ha0, hae⟩ := h.eq_of_joined hp hpa
  obtain ⟨hb0, hbe⟩ := h.eq_of_joined hq hqb
  obtain ⟨ha0', hae'⟩ := h'.eq_of_joined hp' hpa
  obtain ⟨hb0', hbe'⟩ := h'.eq_of_joined hq' hqb
  rw [hae, hbe, hae', hbe', h.ordered a b ha hb ha0 hb0, h'.ordered a b ha hb ha0' hb0']

/-- No label can come later in one labelling than in another: the number that
it skips would have to be used before it. -/
theorem get_le (h : Numbered c signs detected l) (h' : Numbered c signs detected l') :
    ∀ (k : Nat) (p : Pixel rows cols), l.labels.get p = k → l'.labels.get p ≤ k := by
  intro k
  induction k using Nat.strong_induction_on with
  | _ k ih =>
    intro p hk
    by_contra hlt
    have hp : l.labels.get p ≠ 0 := by
      rw [h.ne_zero_iff h']
      omega
    -- a pixel `q` with the label `k` in the second labelling comes before `p`
    obtain ⟨_, q, hq⟩ := (h'.used k).2 ⟨by omega, Nat.le_trans (by omega) (h'.le_count p)⟩
    have hq0 : l.labels.get q ≠ 0 := by
      rw [h.ne_zero_iff h']
      omega
    have hqp : l.labels.get q < l.labels.get p :=
      (h.lt_iff h' hq0 hp (by omega) (by omega)).2 (by omega)
    have := ih (l.labels.get q) (by omega) q rfl
    omega

theorem labels_eq (h : Numbered c signs detected l) (h' : Numbered c signs detected l') :
    l.labels = l'.labels :=
  Grid.ext_get fun p => Nat.le_antisymm (h'.get_le h _ p rfl) (h.get_le h' _ p rfl)

theorem count_le (h : Numbered c signs detected l) (h' : Numbered c signs detected l') :
    l.count ≤ l'.count := by
  by_contra hlt
  obtain ⟨_, p, hp⟩ := (h.used l.count).2 ⟨by omega, Nat.le_refl _⟩
  rw [h.labels_eq h'] at hp
  have := h'.le_count p
  omega

/-- There is only one way to number the components. -/
theorem eq (h : Numbered c signs detected l) (h' : Numbered c signs detected l') : l = l' := by
  cases l with
  | mk labels count =>
    cases l' with
    | mk labels' count' =>
      have hl : labels = labels' := h.labels_eq h'
      have hc : count = count' := Nat.le_antisymm (h.count_le h') (h'.count_le h)
      rw [hl, hc]

end Numbered
end SkySources.Component
