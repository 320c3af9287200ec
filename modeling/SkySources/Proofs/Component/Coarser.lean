import SkySources.Proofs.Component.Numbering

/-!
# Components that grow together

If more pixels are marked, or more pixels are neighbours, components only grow and
run together: what was joined stays joined. If no pixel is detected that was not
marked and detected before, no component appears that was not there in part.

What is proved, for two labellings of which the second is coarser in this way:
  1. `Coarser.joined`: what is joined stays joined;
  2. `Coarser.ne_zero`, `Coarser.eq_of_eq`: labelled pixels stay labelled, and a common
     label stays one;
  3. `Coarser.exists_fine`: every component of the second has a labelled pixel of the
     first;
  4. `Coarser.count_le`: so there are no more components than before.
-/

namespace SkySources.Component
variable {rows cols : Nat} {c c' : Connectivity} {signs signs' : Grid rows cols Sign}
  {detected detected' : Grid rows cols Bool} {p q : Pixel rows cols}

/-- More is marked or more pixels are neighbours, but the same pixels are detected. -/
structure Coarser (c c' : Connectivity) (signs signs' : Grid rows cols Sign)
    (detected detected' : Grid rows cols Bool) : Prop where
  neighbours : ∀ p q : Pixel rows cols, q ∈ c.neighbours p → q ∈ c'.neighbours p
  /-- A marked pixel stays on its side. -/
  sides : ∀ p, signs.get p ≠ .background → signs'.get p = signs.get p
  stays : ∀ p, signs.get p ≠ .background → detected.get p = true → detected'.get p = true
  /-- What is detected was marked and detected before. -/
  known : ∀ p, signs'.get p ≠ .background → detected'.get p = true →
    signs.get p ≠ .background ∧ detected.get p = true

/-- Corners join what edges join. -/
theorem neighbours_corners (h : q ∈ Connectivity.edges.neighbours p) :
    q ∈ Connectivity.corners.neighbours p := by
  rw [Connectivity.mem_neighbours_edges] at h
  rw [Connectivity.mem_neighbours_corners]
  omega

namespace Coarser
variable (h : Coarser c c' signs signs' detected detected') {l l' : Labelling rows cols}
include h

theorem joined (hj : Joined c signs p q) : Joined c' signs' p q := by
  induction hj with
  | refl hp => exact .refl p (by rwa [h.sides p hp])
  | step q r hq hr hs ih =>
    have hside : signs'.get r = signs'.get q := by
      rw [h.sides r (hs ▸ hq.right), h.sides q hq.right, hs]
    exact .step p q r ih (h.neighbours q r hr) hside

variable (hl : Numbered c signs detected l) (hl' : Numbered c' signs' detected' l')
include hl hl'

theorem ne_zero (hp : l.labels.get p ≠ 0) : l'.labels.get p ≠ 0 := by
  obtain ⟨hside, q, hj, hq⟩ := (hl.labelled p).1 hp
  have hj' := h.joined hj
  exact (hl'.labelled p).2 ⟨hj'.left, q, hj', h.stays q hj.right hq⟩

theorem eq_of_eq (hp : l.labels.get p ≠ 0) (he : l.labels.get p = l.labels.get q) :
    l'.labels.get p = l'.labels.get q := by
  have hj := (hl.shared p q hp (he ▸ hp)).1 he
  exact (hl'.eq_of_joined (h.ne_zero hl hl' hp) (h.joined hj)).2

/-- A component of the coarser labelling has a detected pixel, which was labelled before. -/
theorem exists_fine (hp : l'.labels.get p ≠ 0) :
    ∃ q, l'.labels.get q = l'.labels.get p ∧ l.labels.get q ≠ 0 := by
  obtain ⟨_, q, hj, hq⟩ := (hl'.labelled p).1 hp
  obtain ⟨hside, hdet⟩ := h.known q hj.right hq
  exact ⟨q, (hl'.eq_of_joined hp hj).2.symm, (hl.labelled q).2 ⟨hside, q, .refl q hside, hdet⟩⟩

/-- There are no more components than before. -/
theorem count_le : l'.count ≤ l.count := by
  -- each label of the coarser labelling has a pixel with a label of the finer one
  have hlabel (k : Nat) (hk : k ∈ Finset.Icc 1 l'.count) : ∃ n, n ∈ Finset.Icc 1 l.count ∧
      ∃ p, l'.labels.get p = k ∧ l.labels.get p = n ∧ n ≠ 0 := by
    obtain ⟨hk0, p, hp⟩ := (hl'.used k).2 (Finset.mem_Icc.1 hk)
    obtain ⟨q, hq, hq0⟩ := h.exists_fine hl hl' (p := p) (by rwa [hp])
    exact ⟨_, Finset.mem_Icc.2 ((hl.used _).1 ⟨hq0, q, rfl⟩), q, hq.trans hp, rfl, hq0⟩
  choose! finer hfiner using hlabel
  have hinj : Set.InjOn finer (Finset.Icc 1 l'.count) := by
    intro j hj k hk hjk
    obtain ⟨_, p, hpj, hp, hp0⟩ := hfiner j hj
    obtain ⟨_, q, hqk, hq, _⟩ := hfiner k hk
    have := h.eq_of_eq hl hl' (p := p) (q := q) (by rwa [hp]) (by rw [hp, hq, hjk])
    rwa [hpj, hqk] at this
  have := Finset.card_le_card_of_injOn finer (fun k hk => (hfiner k hk).1) hinj
  rwa [Nat.card_Icc, Nat.card_Icc, Nat.add_sub_cancel, Nat.add_sub_cancel] at this

end Coarser
end SkySources.Component
