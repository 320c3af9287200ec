import SkySources.Proofs.Component.Labels
import SkySources.Proofs.Frame.Grid

/-!
# Components inside a frame

A frame of background joins nothing: the ways between pixels stay inside, where
neighbours are neighbours as before. The first pixel of a component stays the first,
so components keep their numbers.

What is proved:
  1. `joined_framed_iff`: what a pixel inside the frame is joined to;
  2. `isFirst_framed`: first pixels stay first;
  3. `label_framed`: so the labels are the framed labels, by the uniqueness of numbers.
-/

namespace SkySources

variable {f : Frame} {rows cols : Nat}

theorem Connectivity.mem_neighbours_framed {c : Connectivity} {p q : Pixel rows cols} :
    q.framed f ∈ c.neighbours (p.framed f) ↔ q ∈ c.neighbours p := by
  rw [mem_neighbours, mem_neighbours]
  simp only [Pixel.framed_row, Pixel.framed_col, Nat.cast_add, add_sub_add_left_eq_sub]

namespace Component
variable {c : Connectivity} {signs : Grid rows cols Sign} {detected : Grid rows cols Bool}
  {l : Labelling rows cols} {p q : Pixel rows cols} {r : FramedPixel f rows cols}

theorem Joined.framed (h : Joined c signs p q) :
    Joined c (signs.framed f .background) (p.framed f) (q.framed f) := by
  induction h with
  | refl hp =>
    apply Joined.refl
    rwa [Grid.get_framed]
  | step q r _ hr hs ih =>
    apply Joined.step _ _ _ ih (Connectivity.mem_neighbours_framed.2 hr)
    rw [Grid.get_framed, Grid.get_framed, hs]

/-- The ways between pixels stay inside the frame. -/
theorem joined_framed_iff : Joined c (signs.framed f .background) (p.framed f) r ↔
    ∃ q : Pixel rows cols, q.framed f = r ∧ Joined c signs p q := by
  constructor
  · intro h
    induction h with
    | refl hp =>
      rw [Grid.get_framed] at hp
      exact ⟨p, rfl, .refl p hp⟩
    | step r r' hr hn hs ih =>
      obtain ⟨q, rfl, hq⟩ := ih
      -- the next pixel is on the side of one inside, so it is not in the frame
      have hside : (signs.framed f .background).get r' ≠ .background := by
        rw [hs, Grid.get_framed]
        exact hq.right
      obtain ⟨q', rfl⟩ := Grid.exists_framed hside
      rw [Grid.get_framed, Grid.get_framed] at hs
      exact ⟨q', rfl, .step p q q' hq (Connectivity.mem_neighbours_framed.1 hn) hs⟩
  · rintro ⟨q, rfl, hq⟩
    exact hq.framed

theorem isFirst_framed : IsFirst c (signs.framed f .background) (p.framed f) ↔
    IsFirst c signs p := by
  simp only [IsFirst, Grid.get_framed, joined_framed_iff]
  refine and_congr_right fun _ => ?_
  constructor
  · intro h q hq
    exact Pixel.index_framed_le.1 (h _ ⟨q, rfl, hq⟩)
  · rintro h r ⟨q, rfl, hq⟩
    exact Pixel.index_framed_le.2 (h q hq)

/-- The labelling with no label in the frame. -/
def Labelling.framed (f : Frame) (l : Labelling rows cols) :
    Labelling (f.top + rows + f.bottom) (f.left + cols + f.right) :=
  ⟨l.labels.framed f 0, l.count⟩

theorem Numbered.framed (h : Numbered c signs detected l) :
    Numbered c (signs.framed f .background) (detected.framed f false) (l.framed f) := by
  constructor
  · intro r
    show (l.labels.framed f 0).get r ≠ 0 ↔ _
    by_cases hp : ∃ p : Pixel rows cols, p.framed f = r
    · obtain ⟨p, rfl⟩ := hp
      simp only [Grid.get_framed, joined_framed_iff, h.labelled p]
      refine and_congr_right fun _ => ?_
      constructor
      · rintro ⟨q, hq, hd⟩
        exact ⟨q.framed f, ⟨q, rfl, hq⟩, by rwa [Grid.get_framed]⟩
      · rintro ⟨_, ⟨q, rfl, hq⟩, hd⟩
        rw [Grid.get_framed] at hd
        exact ⟨q, hq, hd⟩
    · have hout := not_exists.1 hp
      rw [Grid.get_framed_outside hout, Grid.get_framed_outside hout]
      simp only [ne_eq, not_true_eq_false, false_and]
  · intro r r' hr hr'
    obtain ⟨p, rfl⟩ := Grid.exists_framed hr
    obtain ⟨q, rfl⟩ := Grid.exists_framed hr'
    simp only [Labelling.framed, Grid.get_framed] at hr hr' ⊢
    rw [h.shared p q hr hr', joined_framed_iff]
    simp only [Pixel.framed_inj, exists_eq_left]
  · intro k
    rw [← show _ ↔ 1 ≤ k ∧ k ≤ (l.framed f).count from h.used k]
    refine and_congr_right fun hk => ?_
    constructor
    · rintro ⟨r, rfl⟩
      obtain ⟨p, rfl⟩ := Grid.exists_framed hk
      exact ⟨p, (Grid.get_framed p).symm⟩
    · rintro ⟨p, rfl⟩
      exact ⟨p.framed f, Grid.get_framed p⟩
  · intro r r' hf hf' hr hr'
    obtain ⟨p, rfl⟩ := Grid.exists_framed hr
    obtain ⟨q, rfl⟩ := Grid.exists_framed hr'
    rw [isFirst_framed] at hf hf'
    simp only [Labelling.framed, Grid.get_framed] at hr hr' ⊢
    rw [h.ordered p q hf hf' hr hr', Pixel.index_framed_lt]

/-- Components keep their numbers in a frame of background. -/
theorem label_framed (f : Frame) (c : Connectivity) (signs : Grid rows cols Sign)
    (detected : Grid rows cols Bool) :
    label c (signs.framed f .background) (detected.framed f false) =
      (label c signs detected).framed f :=
  (label_numbered c _ _).eq (label_numbered c signs detected).framed

end Component
end SkySources
