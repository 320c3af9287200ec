import SkySources.Proofs.Component.Coarser
import SkySources.Proofs.Island.Renumbered
import SkySources.Proofs.Level

/-!
# Islands that grow together

A lower threshold of the analysis marks more pixels, and corners join more of them.
Either way islands only grow and run together.

What is proved:
  1. `Absorbs.of_coarser`: islands follow their components;
  2. `coarser_analysis`, `coarser_corners`: the two ways to get coarser components;
  3. `ofMarks_absorbs`: so every island lies inside exactly one of the islands that are
     found then, and there are no more of these.
-/

namespace SkySources

open Component Double

namespace IslandMap
variable {α : Type} {rows cols : Nat}

/-- The islands of one map grow together to those of another. -/
structure Absorbs (coarse fine : IslandMap rows cols α) : Prop where
  /-- Each island lies inside exactly one of the others. -/
  inside : ∀ i ∈ fine.islands,
    ∃! j, j ∈ coarse.islands ∧ pixels fine.labels i ⊆ pixels coarse.labels j
  sign_eq : ∀ i ∈ fine.islands, ∀ j ∈ coarse.islands,
    pixels fine.labels i ⊆ pixels coarse.labels j → j.sign = i.sign
  /-- Each of the others has an island inside. -/
  holds : ∀ j ∈ coarse.islands,
    ∃ i ∈ fine.islands, pixels fine.labels i ⊆ pixels coarse.labels j
  length_le : coarse.islands.length ≤ fine.islands.length

variable [Scalar α] {c c' : Connectivity} {data : Grid rows cols α}
  {marks marks' : Grid rows cols Mark} {background : α} {barycentre : Bool}
  {fine coarse : IslandMap rows cols α}

/-- Islands grow together as their components do. -/
theorem Absorbs.of_coarser (h : ofMarks c data marks background barycentre = .ok fine)
    (h' : ofMarks c' data marks' background barycentre = .ok coarse)
    (hc : Coarser c c' (sides marks) (sides marks') (hits marks) (hits marks')) :
    coarse.Absorbs fine := by
  have hn := numbered h
  have hn' := numbered h'
  have hwithin {i j : Island α} (hi : i ∈ fine.islands) {p : Pixel rows cols}
      (hp : (fine.labels.get p : Int) = i.label) (hj : (coarse.labels.get p : Int) = j.label) :
      pixels fine.labels i ⊆ pixels coarse.labels j := by
    intro q hq
    rw [mem_pixels] at hq ⊢
    have := hc.eq_of_eq hn hn' (p := p) (q := q) (ne_zero_of_label h hi hp) (by simp only; omega)
    simp only at this
    omega
  have hlabel {i j : Island α} (hi : i ∈ fine.islands)
      (hij : pixels fine.labels i ⊆ pixels coarse.labels j) {p : Pixel rows cols}
      (hp : (fine.labels.get p : Int) = i.label) : (coarse.labels.get p : Int) = j.label :=
    mem_pixels.1 (hij (mem_pixels.2 hp))
  constructor
  · intro i hi
    -- any pixel of the island tells in which one it lies now
    obtain ⟨p, hp⟩ := exists_pixel h hi
    have hp0 := hc.ne_zero hn hn' (ne_zero_of_label h hi hp)
    obtain ⟨j, hj, hjp⟩ := (exists_label_iff h').2 ⟨hp0, p, rfl⟩
    refine ⟨j, ⟨hj, hwithin hi hp hjp.symm⟩, ?_⟩
    rintro k ⟨hk, hik⟩
    apply label_injective h' hk hj
    rw [hjp, ← hlabel hi hik hp]
  · intro i hi j hj hij
    obtain ⟨p, hp⟩ := exists_pixel h hi
    have hside := ((hn.labelled p).1 (ne_zero_of_label h hi hp)).1
    rw [← (describes h hi).sign_eq p hp, ← (describes h' hj).sign_eq p (hlabel hi hij hp),
      hc.sides p hside]
  · intro j hj
    obtain ⟨p, hp⟩ := exists_pixel h' hj
    have hp0 := ne_zero_of_label h' hj hp
    -- the detected pixel that keeps an island was labelled before
    obtain ⟨q, hq, hq0⟩ := hc.exists_fine hn hn' (p := p) hp0
    obtain ⟨i, hi, hiq⟩ := (exists_label_iff h).2 ⟨hq0, q, rfl⟩
    exact ⟨i, hi, hwithin hi hiq.symm (by simp only at hq; omega)⟩
  · exact hc.count_le hn hn'

end IslandMap

open IslandMap
variable {rows cols : Nat}

/-- Corners make components coarser. -/
theorem coarser_corners (marks : Grid rows cols Mark) :
    Coarser .edges .corners (sides marks) (sides marks) (hits marks) (hits marks) where
  neighbours _ _ := neighbours_corners
  sides _ _ := rfl
  stays _ _ hd := hd
  known _ hs hd := ⟨hs, hd⟩

/-- So does a lower threshold of the analysis. -/
theorem coarser_analysis (c : Connectivity) (data : Grid rows cols Float) {t : Threshold Float}
    {a : Float} (hsigma : 0.0 ≤ t.sigma) (ha : 0.0 ≤ a) (hle : a ≤ t.analysis)
    (hd : t.analysis ≤ t.detection) :
    Coarser c c (sides (t.marks data)) (sides ((t.withAnalysis a).marks data))
      (hits (t.marks data)) (hits ((t.withAnalysis a).marks data)) := by
  rw [le_iff, place_zero] at hsigma ha
  rw [le_iff] at hle hd
  have hsame (p : Pixel rows cols) :
      ((t.withAnalysis a).mark (data.get p)).detected = (t.mark (data.get p)).detected :=
    Threshold.detected_of_analysis_le hsigma.1 ha.1 hle.1 hd.1
  constructor
  · intro p q hq
    exact hq
  · intro p hp
    simp only [sides, Threshold.marks, Grid.get_map] at hp ⊢
    exact Threshold.sign_of_analysis_le hsigma.1 ha.1 hle.1 hp
  · intro p _ hp
    simp only [hits, Threshold.marks, Grid.get_map] at hp ⊢
    rwa [hsame]
  · intro p _ hp
    simp only [sides, hits, Threshold.marks, Grid.get_map] at hp ⊢
    rw [hsame] at hp
    exact ⟨Threshold.sign_of_detected hp, hp⟩

/-- Islands only grow and run together: with a lower threshold of the analysis, as long
as this is not below zero nor above the threshold of detection, and with corners. -/
theorem ofMarks_absorbs (data : Grid rows cols Float) (background : Float) (barycentre : Bool) :
    (∀ (c : Connectivity) (t : Threshold Float) (a : Float), 0.0 ≤ t.sigma → 0.0 ≤ a →
      a ≤ t.analysis → t.analysis ≤ t.detection →
      ∃ fine coarse, ofMarks c data (t.marks data) background barycentre = .ok fine ∧
        ofMarks c data ((t.withAnalysis a).marks data) background barycentre = .ok coarse ∧
        coarse.Absorbs fine) ∧
    (∀ marks : Grid rows cols Mark,
      ∃ fine coarse, ofMarks .edges data marks background barycentre = .ok fine ∧
        ofMarks .corners data marks background barycentre = .ok coarse ∧ coarse.Absorbs fine) := by
  constructor
  · intro c t a hsigma ha hle hd
    obtain ⟨fine, h⟩ := exists_ofMarks c data (t.marks data) background barycentre
    obtain ⟨coarse, h'⟩ :=
      exists_ofMarks c data ((t.withAnalysis a).marks data) background barycentre
    exact ⟨fine, coarse, h, h', .of_coarser h h' (coarser_analysis c data hsigma ha hle hd)⟩
  · intro marks
    obtain ⟨fine, h⟩ := exists_ofMarks .edges data marks background barycentre
    obtain ⟨coarse, h'⟩ := exists_ofMarks .corners data marks background barycentre
    exact ⟨fine, coarse, h, h', .of_coarser h h' (coarser_corners marks)⟩

/-- Two bright pixels with a dim one between them, and one off their corner. -/
def bridged : Grid 2 4 Float := ⟨#v[#v[9.0, 2.5, 8.0, 0.0], #v[0.0, 0.0, 0.0, -7.0]]⟩

/-- The usual thresholds over a level that is known. -/
def usualThreshold : Threshold Float :=
  { mean := 0.0, sigma := 1.0, detection := 5.0, analysis := 3.0, negatives := true }

/-- The bright pixels become one island with a threshold that the dim one passes. -/
theorem ofMarks_absorbs_bridged : 0.0 ≤ usualThreshold.sigma ∧ (0.0 : Float) ≤ 2.0 ∧
    2.0 ≤ usualThreshold.analysis ∧ usualThreshold.analysis ≤ usualThreshold.detection ∧
    ∃ fine coarse, ofMarks .edges bridged (usualThreshold.marks bridged) 0.0 true = .ok fine ∧
      ofMarks .edges bridged ((usualThreshold.withAnalysis 2.0).marks bridged) 0.0 true =
        .ok coarse ∧
      coarse.Absorbs fine := by
  have hsigma : 0.0 ≤ usualThreshold.sigma := by decide +kernel
  have ha : (0.0 : Float) ≤ 2.0 := by decide +kernel
  have hle : 2.0 ≤ usualThreshold.analysis := by decide +kernel
  have hd : usualThreshold.analysis ≤ usualThreshold.detection := by decide +kernel
  exact ⟨hsigma, ha, hle, hd,
    (ofMarks_absorbs bridged 0.0 true).1 .edges usualThreshold 2.0 hsigma ha hle hd⟩

end SkySources
