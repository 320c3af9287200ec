import SkySources.Proofs.Island.Found

/-!
# Islands up to their numbers

With the same marked pixels but fewer detected ones, some islands are not found and
the others get new numbers. Without its number an island is known by its pixels and
by what is measured on them (`unnumbered`).

What is proved, where the same pixels are marked on the same sides:
  1. `unnumbered_eq`: two islands that share a pixel are the same up to their numbers;
  2. `map_unnumbered_eq`: with fewer detected pixels exactly the islands that hold one
     of them are found, in the same order.
-/

namespace SkySources

namespace IslandMap
variable {α : Type} {rows cols : Nat}

/-- The pixels of an island in a label map, in raster order. -/
def pixels (labels : Grid rows cols Nat) (i : Island α) : List (Pixel rows cols) :=
  labels.pixelsWhere fun k : Nat => decide ((k : Int) = i.label)

/-- An island without its number, and its pixels. -/
def unnumbered (labels : Grid rows cols Nat) (i : Island α) : List (Pixel rows cols) × Island α :=
  (pixels labels i, { i with label := 0 })

/-- Some pixel of an island is detected. -/
def isHit (labels : Grid rows cols Nat) (detected : Grid rows cols Bool) (i : Island α) : Bool :=
  (pixels labels i).any detected.get

theorem mem_pixels {labels : Grid rows cols Nat} {i : Island α} {p : Pixel rows cols} :
    p ∈ pixels labels i ↔ (labels.get p : Int) = i.label := by
  rw [pixels, Grid.mem_pixelsWhere, decide_eq_true_iff]

theorem isHit_iff {labels : Grid rows cols Nat} {detected : Grid rows cols Bool} {i : Island α} :
    isHit labels detected i = true ↔
      ∃ p, (labels.get p : Int) = i.label ∧ detected.get p = true := by
  simp only [isHit, List.any_eq_true, mem_pixels]

variable [Scalar α]

/-- The label of a census is only passed on. -/
theorem island_label (c : Census α) (label label' : Int) (barycentre : Bool) :
    (c.island label barycentre).map (fun i => { i with label := 0 }) =
      (c.island label' barycentre).map fun i => { i with label := 0 } := by
  unfold Census.island
  cases BoundingBox.make c.minRow c.maxRow c.minCol c.maxCol <;> rfl

variable {c : Connectivity} {data : Grid rows cols α} {marks marks' : Grid rows cols Mark}
  {background : α} {barycentre : Bool} {m m' : IslandMap rows cols α} {i j : Island α}
  {p : Pixel rows cols}

/-- An island comes from the census of its pixels. -/
theorem island_of_pixels (h : ofMarks c data marks background barycentre = .ok m)
    (hi : i ∈ m.islands) :
    (Census.ofPixels data (marks.map fun m => m.sign.toInt) background
      (pixels m.labels i)).island i.label barycentre = .ok i := by
  obtain ⟨k, hk⟩ := List.getElem?_of_mem hi
  have hcensus := getElem?_islands h hk
  have hlabel : i.label = k + 1 := (Census.island_eq_ok hcensus).1.1
  have hpixels : pixels m.labels i = m.labels.pixelsWhere fun label => label = k + 1 := by
    unfold pixels
    congr 1
    funext n
    rw [hlabel]
    exact decide_eq_decide.2 (by omega)
  rw [hpixels, hlabel]
  exact hcensus

theorem exists_pixel (h : ofMarks c data marks background barycentre = .ok m)
    (hi : i ∈ m.islands) : ∃ p, (m.labels.get p : Int) = i.label := by
  have hpos := label_pos h hi
  obtain ⟨_, p, hp⟩ := (exists_label_iff (k := i.label.toNat) h).1 ⟨i, hi, by omega⟩
  exact ⟨p, by omega⟩

section Renumbered
variable (h : ofMarks c data marks background barycentre = .ok m)
  (h' : ofMarks c data marks' background barycentre = .ok m') (hsides : sides marks' = sides marks)
include h h' hsides

/-- Islands that share a pixel are the same up to their numbers. -/
theorem unnumbered_eq (hi : i ∈ m.islands) (hj : j ∈ m'.islands)
    (hp : (m.labels.get p : Int) = i.label) (hp' : (m'.labels.get p : Int) = j.label) :
    unnumbered m'.labels j = unnumbered m.labels i := by
  have hn := numbered h
  have hn' := numbered h'
  rw [hsides] at hn'
  have hp0 := ne_zero_of_label h hi hp
  have hp0' := ne_zero_of_label h' hj hp'
  have hpixels : pixels m'.labels j = pixels m.labels i := by
    unfold pixels Grid.pixelsWhere
    congr 1
    funext q
    refine decide_eq_decide.2 ?_
    rw [← hp, ← hp', Int.natCast_inj, Int.natCast_inj]
    constructor
    · intro hq
      have hj := (hn'.shared p q hp0' (hq ▸ hp0')).1 hq.symm
      exact (hn.eq_of_joined hp0 hj).2.symm
    · intro hq
      have hj := (hn.shared p q hp0 (hq ▸ hp0)).1 hq.symm
      exact (hn'.eq_of_joined hp0' hj).2.symm
  have hsigns : (marks'.map fun m => m.sign.toInt) = marks.map fun m => m.sign.toInt := by
    apply Grid.ext_get
    intro q
    have hq := congrArg (fun g => (g.get q).toInt) hsides
    simp only [sides, Grid.get_map] at hq
    rw [Grid.get_map, Grid.get_map, hq]
  have hcensus := island_of_pixels h hi
  have hcensus' := island_of_pixels h' hj
  rw [hpixels, hsigns] at hcensus'
  have hsame := island_label (Census.ofPixels data (marks.map fun m => m.sign.toInt) background
    (pixels m.labels i)) j.label i.label barycentre
  rw [hcensus, hcensus'] at hsame
  exact Prod.ext hpixels (Except.ok.inj hsame)

/-- With fewer detected pixels exactly the islands that hold one of them are found, in
the same order. -/
theorem map_unnumbered_eq (hhits : ∀ p, (hits marks').get p = true → (hits marks).get p = true) :
    m'.islands.map (unnumbered m'.labels) =
      (m.islands.filter (isHit m.labels (hits marks'))).map (unnumbered m.labels) := by
  have hn := numbered h
  have hn' := numbered h'
  rw [hsides] at hn'
  have hlabelled {p : Pixel rows cols} (hp : m'.labels.get p ≠ 0) : m.labels.get p ≠ 0 := by
    obtain ⟨hside, q, hj, hq⟩ := (hn'.labelled p).1 hp
    exact (hn.labelled p).2 ⟨hside, q, hj, hhits q hq⟩
  have hfilter {i : Island α} : i ∈ m.islands.filter (isHit m.labels (hits marks')) ↔
      i ∈ m.islands ∧ isHit m.labels (hits marks') i = true := List.mem_filter
  symm
  -- both lists follow the labels of the first map
  apply eq_of_pairwise_of_mem_iff (r := fun a b =>
    ∃ p ∈ a.1, ∃ q ∈ b.1, m.labels.get p < m.labels.get q)
  · intro a ha b hb
    obtain ⟨i, _, rfl⟩ := List.mem_map.1 ha
    obtain ⟨j, _, rfl⟩ := List.mem_map.1 hb
    rintro ⟨p, hp, q, hq, hlt⟩ ⟨q', hq', p', hp', hlt'⟩
    rw [unnumbered, mem_pixels] at hp hq hq' hp'
    omega
  · rw [List.pairwise_map]
    apply ((label_increasing h).sublist List.filter_sublist).imp_of_mem
    intro i j hi hj hlt
    obtain ⟨p, hp⟩ := exists_pixel h (hfilter.1 hi).1
    obtain ⟨q, hq⟩ := exists_pixel h (hfilter.1 hj).1
    exact ⟨p, mem_pixels.2 hp, q, mem_pixels.2 hq, by omega⟩
  · rw [List.pairwise_map]
    apply (label_increasing h').imp_of_mem
    intro i j hi hj hlt
    obtain ⟨p, hp⟩ := exists_pixel h' hi
    obtain ⟨q, hq⟩ := exists_pixel h' hj
    have hp0 := ne_zero_of_label h' hi hp
    have hq0 := ne_zero_of_label h' hj hq
    have hpq : m'.labels.get p < m'.labels.get q := by omega
    refine ⟨p, mem_pixels.2 hp, q, mem_pixels.2 hq, ?_⟩
    exact (hn'.lt_iff hn hp0 hq0 (hlabelled hp0) (hlabelled hq0)).1 hpq
  · intro v
    rw [List.mem_map, List.mem_map]
    constructor
    · rintro ⟨i, hi, rfl⟩
      obtain ⟨hi, hhit⟩ := hfilter.1 hi
      obtain ⟨p, hp, hd⟩ := isHit_iff.1 hhit
      -- the detected pixel keeps its component, so it belongs to an island
      have hp0 := ne_zero_of_label h hi hp
      have hside := ((hn.labelled p).1 hp0).1
      have hp0' := (hn'.labelled p).2 ⟨hside, p, .refl p hside, hd⟩
      obtain ⟨j, hj, hjp⟩ := (exists_label_iff h').2 ⟨hp0', p, rfl⟩
      exact ⟨j, hj, unnumbered_eq h h' hsides hi hj hp hjp.symm⟩
    · rintro ⟨j, hj, rfl⟩
      obtain ⟨p, hp⟩ := exists_pixel h' hj
      have hp0' := ne_zero_of_label h' hj hp
      obtain ⟨_, q, hjq, hd⟩ := (hn'.labelled p).1 hp0'
      obtain ⟨hq0', hpq⟩ := hn'.eq_of_joined hp0' hjq
      change m'.labels.get p = m'.labels.get q at hpq
      obtain ⟨i, hi, hiq⟩ := (exists_label_iff h).2 ⟨hlabelled hq0', q, rfl⟩
      refine ⟨i, hfilter.2 ⟨hi, isHit_iff.2 ⟨q, hiq.symm, hd⟩⟩, ?_⟩
      exact (unnumbered_eq h h' hsides hi hj hiq.symm (by omega)).symm

end Renumbered
end IslandMap
end SkySources
