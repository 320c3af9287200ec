import Mathlib
import SkySources.Proofs.Component.Numbering

/-!
# Labels of components

The labels are made from the numbers of two labellings, one for each side of the
background. The order in which a labeller numbers is left open throughout.

What is proved:
  1. `bothSides_tells`: the numbers of both sides tell the components of marked
     pixels apart (`Tells`), because those below the background are moved past
     those above it;
  2. `keep_ne_zero_iff`, `keep_eq_iff`: dropping the components without a
     detected pixel keeps that;
  3. `idxOf_order_lt`: the numbers in use, put in order, follow the places where
     they are met first, and these are the first pixels of their components;
  4. `labelBy_numbered`: so the labels are what they have to be, whatever order
     the labeller has.
-/

namespace SkySources.Component
variable {rows cols : Nat} {c : Connectivity} {signs : Grid rows cols Sign}
  {detected : Grid rows cols Bool} {p q : Pixel rows cols}

/-! ## The numbers of both sides -/

/-- Numbers that tell the components of marked pixels apart, none above `most`. -/
structure Tells (c : Connectivity) (signs : Grid rows cols Sign) (most : Nat)
    (numbers : Grid rows cols Nat) : Prop where
  zero_iff : ∀ p, numbers.get p = 0 ↔ signs.get p = .background
  le_most : ∀ p, numbers.get p ≤ most
  eq_iff : ∀ p q, signs.get p ≠ .background →
    (numbers.get p = numbers.get q ↔ Joined c signs p q)

theorem side_get_eq_false {s : Sign} : (side s signs).get p = false ↔ signs.get p ≠ s := by
  rw [← Bool.not_eq_true, side_get]

section BothSides
variable {above below : Labelling rows cols}

theorem bothSides_above (hb : Numbers c (side .below signs) below) (hp : signs.get p = .above) :
    (bothSides above below).get p = above.labels.get p := by
  have hz : below.labels.get p = 0 := (hb.zero_iff p).2 (side_get_eq_false.2 (by simp [hp]))
  simp [bothSides, hz]

theorem bothSides_below (hb : Numbers c (side .below signs) below) (hp : signs.get p = .below) :
    (bothSides above below).get p = below.labels.get p + above.count := by
  have hz : below.labels.get p ≠ 0 := by
    intro h
    exact side_get_eq_false.1 ((hb.zero_iff p).1 h) hp
  simp [bothSides, Nat.pos_of_ne_zero hz]

theorem bothSides_background (ha : Numbers c (side .above signs) above)
    (hb : Numbers c (side .below signs) below) (hp : signs.get p = .background) :
    (bothSides above below).get p = 0 := by
  have hza : above.labels.get p = 0 := (ha.zero_iff p).2 (side_get_eq_false.2 (by simp [hp]))
  have hzb : below.labels.get p = 0 := (hb.zero_iff p).2 (side_get_eq_false.2 (by simp [hp]))
  simp [bothSides, hza, hzb]

/-- The numbers above the background are positive and at most the count; those
below it are larger. -/
theorem bothSides_range (ha : Numbers c (side .above signs) above)
    (hb : Numbers c (side .below signs) below) (p : Pixel rows cols) :
    (signs.get p = .above → 0 < (bothSides above below).get p ∧
      (bothSides above below).get p ≤ above.count) ∧
    (signs.get p = .below → above.count < (bothSides above below).get p ∧
      (bothSides above below).get p ≤ above.count + below.count) := by
  constructor
  · intro hp
    rw [bothSides_above hb hp]
    refine ⟨Nat.pos_of_ne_zero ?_, ha.le_count p⟩
    intro h
    exact side_get_eq_false.1 ((ha.zero_iff p).1 h) hp
  · intro hp
    rw [bothSides_below hb hp]
    have hz : below.labels.get p ≠ 0 := by
      intro h
      exact side_get_eq_false.1 ((hb.zero_iff p).1 h) hp
    have := hb.le_count p
    omega

theorem bothSides_eq_iff (ha : Numbers c (side .above signs) above)
    (hb : Numbers c (side .below signs) below) (hp : signs.get p ≠ .background) :
    (bothSides above below).get p = (bothSides above below).get q ↔ Joined c signs p q := by
  have hrp := bothSides_range ha hb p
  have hrq := bothSides_range ha hb q
  by_cases hpq : signs.get q = signs.get p
  · -- on one side the labeller of that side decides
    rw [joined_iff]
    cases hs : signs.get p with
    | background => exact absurd hs hp
    | above =>
      rw [hs] at hpq
      rw [bothSides_above hb hs, bothSides_above hb hpq,
        ha.eq_iff p q (side_get.2 hs) (side_get.2 hpq)]
      simp
    | below =>
      rw [hs] at hpq
      rw [bothSides_below hb hs, bothSides_below hb hpq, Nat.add_right_cancel_iff,
        hb.eq_iff p q (side_get.2 hs) (side_get.2 hpq)]
      simp
  · have hj : ¬Joined c signs p q := fun h => hpq h.sign_eq
    rw [iff_false_right hj]
    intro he
    rw [he] at hrp
    have hz := bothSides_background ha hb (p := q)
    cases hs : signs.get p with
    | background => exact hp hs
    | above =>
      cases ht : signs.get q with
      | background => have := hrp.1 hs; have := hz ht; omega
      | above => exact hpq (by rw [hs, ht])
      | below => have := hrp.1 hs; have := hrq.2 ht; omega
    | below =>
      cases ht : signs.get q with
      | background => have := hrp.2 hs; have := hz ht; omega
      | above => have := hrp.2 hs; have := hrq.1 ht; omega
      | below => exact hpq (by rw [hs, ht])

theorem bothSides_tells (ha : Numbers c (side .above signs) above)
    (hb : Numbers c (side .below signs) below) :
    Tells c signs (above.count + below.count) (bothSides above below) := by
  constructor
  · intro p
    have hr := bothSides_range ha hb p
    cases hs : signs.get p with
    | background => simp [bothSides_background ha hb hs]
    | above => have := hr.1 hs; simp only [reduceCtorEq, iff_false]; omega
    | below => have := hr.2 hs; simp only [reduceCtorEq, iff_false]; omega
  · intro p
    have hr := bothSides_range ha hb p
    cases hs : signs.get p with
    | background => rw [bothSides_background ha hb hs]; exact Nat.zero_le _
    | above => have := hr.1 hs; omega
    | below => exact (hr.2 hs).2
  · exact fun p q hp => bothSides_eq_iff ha hb hp

end BothSides

/-! ## Components with a detected pixel -/

section Keep
variable {most : Nat} {numbers : Grid rows cols Nat}

theorem mem_found {k : Nat} : k ∈ found numbers detected ↔
    k ≠ 0 ∧ ∃ q, detected.get q = true ∧ numbers.get q = k := by
  simp only [found, List.mem_filter, List.mem_map, Grid.mem_pixelsWhere, id, decide_eq_true_eq,
    Nat.pos_iff_ne_zero]
  exact and_comm

theorem keep_get : (keep numbers detected).get p =
    if numbers.get p ∈ found numbers detected then numbers.get p else 0 := by
  rw [keep, Grid.get_map]

theorem get_of_keep_ne_zero (h : (keep numbers detected).get p ≠ 0) :
    (keep numbers detected).get p = numbers.get p ∧ numbers.get p ≠ 0 := by
  rw [keep_get] at h ⊢
  split at h
  · next hm => exact ⟨if_pos hm, h⟩
  · exact absurd rfl h

theorem keep_ne_zero_iff (ht : Tells c signs most numbers) : (keep numbers detected).get p ≠ 0 ↔
    signs.get p ≠ .background ∧ ∃ q, Joined c signs p q ∧ detected.get q = true := by
  have hz := (ht.zero_iff p).not
  rw [keep_get]
  constructor
  · intro h
    split at h
    · next hm =>
      obtain ⟨hp, q, hd, hq⟩ := mem_found.1 hm
      exact ⟨hz.1 hp, q, (ht.eq_iff p q (hz.1 hp)).1 hq.symm, hd⟩
    · exact absurd rfl h
  · rintro ⟨hp, q, hj, hd⟩
    rw [if_pos (mem_found.2 ⟨hz.2 hp, q, hd, ((ht.eq_iff p q hp).2 hj).symm⟩)]
    exact hz.2 hp

theorem keep_eq_iff (ht : Tells c signs most numbers) (hp : (keep numbers detected).get p ≠ 0)
    (hq : (keep numbers detected).get q ≠ 0) :
    (keep numbers detected).get p = (keep numbers detected).get q ↔ Joined c signs p q := by
  rw [(get_of_keep_ne_zero hp).1, (get_of_keep_ne_zero hq).1]
  exact ht.eq_iff p q ((keep_ne_zero_iff ht).1 hp).1

theorem keep_le (ht : Tells c signs most numbers) (p : Pixel rows cols) :
    (keep numbers detected).get p ≤ most := by
  rw [keep_get]
  split
  · exact ht.le_most p
  · exact Nat.zero_le _

/-- The number of a component is met first at its first pixel. -/
theorem idxOf_keep (ht : Tells c signs most numbers) (hp : IsFirst c signs p)
    (h0 : (keep numbers detected).get p ≠ 0) :
    (keep numbers detected).toList.idxOf ((keep numbers detected).get p) = p.index := by
  apply Grid.idxOf_toList
  intro q hq
  exact hp.2 q ((keep_eq_iff ht h0 (hq ▸ h0)).1 hq.symm)

end Keep

/-! ## The order in which numbers are met -/

section Order
variable {most : Nat} {cells : List Nat}

/-- In a list on which a function grows, places are ordered by the function. -/
theorem idxOf_lt_iff_of_pairwise {f : Nat → Nat} {l : List Nat}
    (h : l.Pairwise fun i j => f i < f j) {i j : Nat} (hi : i ∈ l) (hj : j ∈ l) :
    l.idxOf i < l.idxOf j ↔ f i < f j := by
  have grows {a b : Nat} (ha : a ∈ l) (hb : b ∈ l) (hab : l.idxOf a < l.idxOf b) : f a < f b := by
    have := List.pairwise_iff_getElem.1 h _ _ (List.idxOf_lt_length_of_mem ha)
      (List.idxOf_lt_length_of_mem hb) hab
    rwa [List.getElem_idxOf, List.getElem_idxOf] at this
  constructor
  · exact grows hi hj
  · intro hf
    rcases Nat.lt_trichotomy (l.idxOf i) (l.idxOf j) with hlt | heq | hgt
    · exact hlt
    · rw [(List.idxOf_inj hi).1 heq] at hf
      exact absurd hf (Nat.lt_irrefl _)
    · exact absurd (grows hj hi hgt) (Nat.lt_asymm hf)

theorem mem_firsts {e : Nat × Nat} : e ∈ firsts most cells ↔
    (e.1 ≤ most ∧ e.1 ≠ 0 ∧ e.1 ∈ cells) ∧ e.2 = cells.idxOf e.1 := by
  simp only [firsts, List.mem_map, List.mem_filter, List.mem_range, decide_eq_true_eq,
    Nat.pos_iff_ne_zero, Nat.lt_succ_iff]
  constructor
  · rintro ⟨k, hk, rfl⟩
    exact ⟨hk, rfl⟩
  · rintro ⟨hk, he⟩
    exact ⟨e.1, hk, Prod.ext rfl he.symm⟩

theorem firsts_nodup : (firsts most cells).Nodup := by
  apply List.Nodup.map
  · intro i j hij
    exact congrArg Prod.fst hij
  · exact List.nodup_range.filter _

theorem mem_order (hle : ∀ k ∈ cells, k ≤ most) {k : Nat} :
    k ∈ order most cells ↔ k ≠ 0 ∧ k ∈ cells := by
  simp only [order, List.mem_map, List.mem_mergeSort, mem_firsts]
  constructor
  · rintro ⟨e, ⟨⟨_, h0, hm⟩, _⟩, rfl⟩
    exact ⟨h0, hm⟩
  · rintro ⟨h0, hm⟩
    exact ⟨(k, cells.idxOf k), ⟨⟨hle k hm, h0, hm⟩, rfl⟩, rfl⟩

/-- The numbers in use stand in the order of the places where they are met. -/
theorem order_pairwise :
    (order most cells).Pairwise fun i j => cells.idxOf i < cells.idxOf j := by
  have hsorted : ((firsts most cells).mergeSort fun a b => decide (a.2 ≤ b.2)).Pairwise
      fun a b => decide (a.2 ≤ b.2) = true := by
    apply List.pairwise_mergeSort
    · intro a b d hab hbd
      simp only [decide_eq_true_eq] at hab hbd ⊢
      exact Nat.le_trans hab hbd
    · intro a b
      simp only [Bool.or_eq_true, decide_eq_true_eq]
      exact Nat.le_total _ _
  have hnodup : ((firsts most cells).mergeSort fun a b => decide (a.2 ≤ b.2)).Nodup :=
    (List.mergeSort_perm _ _).nodup_iff.2 firsts_nodup
  rw [order, List.pairwise_map]
  refine ((hsorted.imp of_decide_eq_true).and hnodup).imp_of_mem ?_
  intro a b ha hb hab
  obtain ⟨⟨_, _, hma⟩, ha2⟩ := mem_firsts.1 (List.mem_mergeSort.1 ha)
  obtain ⟨⟨_, _, hmb⟩, hb2⟩ := mem_firsts.1 (List.mem_mergeSort.1 hb)
  rw [← ha2, ← hb2]
  refine Nat.lt_of_le_of_ne hab.1 ?_
  intro he
  refine hab.2 (Prod.ext ?_ he)
  rw [ha2, hb2] at he
  exact (List.idxOf_inj hma).1 he

theorem order_nodup : (order most cells).Nodup := by
  refine order_pairwise.imp ?_
  intro i j hlt he
  rw [he] at hlt
  exact Nat.lt_irrefl _ hlt

theorem idxOf_order_lt (hle : ∀ k ∈ cells, k ≤ most) {i j : Nat} (hi : i ≠ 0 ∧ i ∈ cells)
    (hj : j ≠ 0 ∧ j ∈ cells) :
    (order most cells).idxOf i < (order most cells).idxOf j ↔ cells.idxOf i < cells.idxOf j :=
  idxOf_lt_iff_of_pairwise order_pairwise ((mem_order hle).2 hi) ((mem_order hle).2 hj)

theorem place_ne_zero {order : List Nat} {k : Nat} : place order k ≠ 0 ↔ k ≠ 0 := by
  unfold place
  split <;> simp [*]

theorem place_of_ne_zero {order : List Nat} {k : Nat} (h : k ≠ 0) :
    place order k = order.idxOf k + 1 := if_neg h

end Order

/-! ## Labels -/

/-- Numbers that tell the components apart, put in order, label them. -/
theorem numbered_of_tells {most : Nat} {numbers : Grid rows cols Nat}
    (ht : Tells c signs most numbers) :
    Numbered c signs detected
      ⟨(keep numbers detected).map (place (order most (keep numbers detected).toList)),
        (order most (keep numbers detected).toList).length⟩ := by
  let kept := keep numbers detected
  have hle : ∀ k ∈ kept.toList, k ≤ most := by
    intro k hk
    obtain ⟨p, rfl⟩ := Grid.mem_toList.1 hk
    exact keep_le ht p
  have hin (p : Pixel rows cols) : kept.get p ∈ kept.toList := Grid.mem_toList.2 ⟨p, rfl⟩
  have hmem (p : Pixel rows cols) (hp : kept.get p ≠ 0) : kept.get p ∈ order most kept.toList :=
    (mem_order hle).2 ⟨hp, hin p⟩
  constructor
  · intro p
    simp only [Grid.get_map, place_ne_zero]
    exact keep_ne_zero_iff ht
  · intro p q hp hq
    simp only [Grid.get_map, place_ne_zero] at hp hq ⊢
    rw [place_of_ne_zero hp, place_of_ne_zero hq, Nat.add_right_cancel_iff,
      List.idxOf_inj (hmem p hp)]
    exact keep_eq_iff ht hp hq
  · intro k
    simp only [Grid.get_map]
    constructor
    · rintro ⟨hk, p, rfl⟩
      rw [place_ne_zero] at hk
      rw [place_of_ne_zero hk]
      exact ⟨Nat.succ_pos _, List.idxOf_lt_length_of_mem (hmem p hk)⟩
    · rintro ⟨h1, hk⟩
      -- the label `k` is that of the number at place `k - 1`
      let n := (order most kept.toList)[k - 1]
      have hn : n ∈ order most kept.toList := List.getElem_mem _
      obtain ⟨h0, hc⟩ := (mem_order hle).1 hn
      obtain ⟨p, hp⟩ := Grid.mem_toList.1 hc
      refine ⟨by omega, p, ?_⟩
      change place (order most kept.toList) (kept.get p) = k
      rw [hp, place_of_ne_zero h0, order_nodup.idxOf_getElem]
      omega
  · intro p q hp hq hp0 hq0
    simp only [Grid.get_map, place_ne_zero] at hp0 hq0 ⊢
    rw [place_of_ne_zero hp0, place_of_ne_zero hq0, Nat.add_lt_add_iff_right,
      idxOf_order_lt hle ⟨hp0, hin p⟩ ⟨hq0, hin q⟩, idxOf_keep ht hp hp0, idxOf_keep ht hq hq0]

/-- The labels are what they have to be, in whatever order the labeller numbers
the components of a mask. -/
theorem labelBy_numbered {labeller : Labeller rows cols}
    (h : ∀ mask, Numbers c mask (labeller mask)) (signs : Grid rows cols Sign)
    (detected : Grid rows cols Bool) :
    Numbered c signs detected (labelBy labeller signs detected) :=
  numbered_of_tells (bothSides_tells (h _) (h _))

theorem label_numbered (c : Connectivity) (signs : Grid rows cols Sign)
    (detected : Grid rows cols Bool) : Numbered c signs detected (label c signs detected) :=
  labelBy_numbered (search_numbers c) signs detected

/-- A labelling numbers the components that hold a detected pixel exactly if it
is the one that is computed, with any labeller; and pixels of different sides
never share a label. -/
theorem numbered_iff_eq_labelBy (c : Connectivity) (labeller : Labeller rows cols)
    (h : ∀ mask, Numbers c mask (labeller mask)) (signs : Grid rows cols Sign)
    (detected : Grid rows cols Bool) :
    (∀ l, Numbered c signs detected l ↔ l = labelBy labeller signs detected) ∧
    labelBy labeller signs detected = label c signs detected ∧
    ∀ p q, (label c signs detected).labels.get p ≠ 0 →
      (label c signs detected).labels.get p = (label c signs detected).labels.get q →
      signs.get p = signs.get q := by
  have hn := labelBy_numbered h signs detected
  have hl := label_numbered c signs detected
  refine ⟨?_, hn.eq hl, ?_⟩
  · intro l
    constructor
    · intro hnl
      exact hnl.eq hn
    · rintro rfl
      exact hn
  · intro p q hp hpq
    exact ((hl.shared p q hp (hpq ▸ hp)).1 hpq).sign_eq.symm

/-- Pixels above and below the background that only share corners. -/
def crossedSigns : Grid 2 2 Sign := ⟨#v[#v[.above, .below], #v[.below, .above]]⟩

/-- Only the lower pixels are detected. -/
def crossedDetected : Grid 2 2 Bool := ⟨#v[#v[false, false], #v[true, true]]⟩

def crossedLabels : Grid 2 2 Nat := ⟨#v[#v[1, 2], #v[2, 1]]⟩

/-- The two diagonals cross and stay apart; the one that is detected last comes first. -/
theorem numbered_crossed : (∀ mask : Grid 2 2 Bool, Numbers .corners mask (search .corners mask)) ∧
    Numbered .corners crossedSigns crossedDetected ⟨crossedLabels, 2⟩ := by
  refine ⟨search_numbers .corners, ?_⟩
  have h := numbered_iff_eq_labelBy .corners (search .corners) (search_numbers .corners)
    crossedSigns crossedDetected
  have e : ⟨crossedLabels, 2⟩ = labelBy (search .corners) crossedSigns crossedDetected := by cbv
  exact (h.1 _).2 e

end SkySources.Component
