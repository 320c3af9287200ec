import Mathlib
import SkySources.Proofs.Survey.Accepted
import SkySources.Proofs.Survey.Outcome
import SkySources.Proofs.Threshold

/-!
# The results of a survey agree

Marks, label map and islands come from different stages, and the label map only
loses the dropped islands in the end. `Agreement` says what holds between them
when a survey is over.

What is proved:
  1. `kept_agreement`: the islands that are kept agree with the marks and with
     the label map before any fit;
  2. `Agreement.of_bare`: no fit changes that;
  3. `surveyBy_agreement`: so the results of every survey agree.
-/

namespace SkySources

open Component IslandMap

/-- Label map, marks and islands of an image agree with each other. -/
structure Agreement {rows cols : Nat} (c : Connectivity) (minArea : Int)
    (data : Grid rows cols Float) (labels : Grid rows cols Nat) (marks : Grid rows cols Mark)
    (islands : List (Island Float)) : Prop where
  positive : ∀ i ∈ islands, 0 < i.label
  increasing : islands.Pairwise fun i j => i.label < j.label
  /-- The labels in the map are those of the islands. -/
  used : ∀ k : Nat, (k ≠ 0 ∧ ∃ p, labels.get p = k) ↔ ∃ i ∈ islands, i.label = k
  /-- The pixels of an island are counted. -/
  npix_eq : ∀ i ∈ islands, i.npix = {p | (labels.get p : Int) = i.label}.ncard
  large : ∀ i ∈ islands, minArea ≤ i.npix
  /-- The pixels of an island are in the analysis, with its sign. -/
  marked : ∀ i ∈ islands, ∀ p, (labels.get p : Int) = i.label →
    (marks.get p).inAnalysis = true ∧ (marks.get p).sign.toInt = i.sign
  detected : ∀ i ∈ islands, ∃ p, (labels.get p : Int) = i.label ∧ (marks.get p).detected = true
  /-- A detected pixel is only lost with a component that is too small. -/
  lost : ∀ p, (marks.get p).detected = true → labels.get p = 0 →
    Joined c (sides marks) p p ∧ ({q | Joined c (sides marks) p q}.ncard : Int) < minArea
  finite : ∀ p, labels.get p ≠ 0 → (data.get p).isFinite = true

variable {rows cols : Nat} {c : Connectivity} {minArea : Int} {data : Grid rows cols Float}
  {labels : Grid rows cols Nat} {marks : Grid rows cols Mark} {islands : List (Island Float)}

/-- Fits do not matter. -/
theorem Agreement.of_bare {islands' : List (Island Float)}
    (h : Agreement c minArea data labels marks islands)
    (he : islands'.map Island.bare = islands.map Island.bare) :
    Agreement c minArea data labels marks islands' := by
  have hmem {i : Island Float} (hi : i ∈ islands') :
      ∃ j ∈ islands, j.label = i.label ∧ j.npix = i.npix ∧ j.sign = i.sign := by
    have hi' := List.mem_map_of_mem (f := Island.bare) hi
    rw [he] at hi'
    obtain ⟨j, hj, hb⟩ := List.mem_map.1 hi'
    have hl : j.bare.label = i.bare.label := by rw [hb]
    have hn : j.bare.npix = i.bare.npix := by rw [hb]
    have hs : j.bare.sign = i.bare.sign := by rw [hb]
    exact ⟨j, hj, hl, hn, hs⟩
  have hlabels : islands'.map Island.label = islands.map Island.label := by
    have hl := congrArg (List.map Island.label) he
    rwa [List.map_map, List.map_map] at hl
  constructor
  · intro i hi
    obtain ⟨j, hj, hl, _⟩ := hmem hi
    exact hl ▸ h.positive j hj
  · have hp := List.pairwise_map.2 h.increasing
    rw [← hlabels] at hp
    exact List.pairwise_map.1 hp
  · intro k
    rw [h.used k, ← List.mem_map (f := Island.label), ← hlabels, List.mem_map]
  · intro i hi
    obtain ⟨j, hj, hl, hn, _⟩ := hmem hi
    rw [← hl, ← hn]
    exact h.npix_eq j hj
  · intro i hi
    obtain ⟨j, hj, _, hn, _⟩ := hmem hi
    exact hn ▸ h.large j hj
  · intro i hi
    obtain ⟨j, hj, hl, _, hs⟩ := hmem hi
    rw [← hl, ← hs]
    exact h.marked j hj
  · intro i hi
    obtain ⟨j, hj, hl, _⟩ := hmem hi
    rw [← hl]
    exact h.detected j hj
  · exact h.lost
  · exact h.finite

/-! ## Before any fit -/

section Detected
variable {α : Type} [Scalar α] {plan : Plan α} {data : Grid rows cols α}
  {s : Sighting rows cols α} (hs : Sighting.of plan data = .ok s)
include hs

theorem marks_get (p : Pixel rows cols) :
    s.marks.get p = (plan.threshold s.levels.background).mark (data.get p) := by
  obtain ⟨_, hmarks, _⟩ := Sighting.of_eq_ok_iff.1 hs
  rw [hmarks, Threshold.marks, Grid.get_map]

theorem sides_ne_of_label {p : Pixel rows cols} (hp : s.found.labels.get p ≠ 0) :
    (s.marks.get p).sign ≠ .background := by
  obtain ⟨_, _, hfound, _⟩ := Sighting.of_eq_ok_iff.1 hs
  have hside := (((numbered hfound).labelled p).1 hp).1
  rwa [sides, Grid.get_map] at hside

/-- The pixels of a component with a detected pixel are those of its island. -/
theorem exists_island_of_detected {p : Pixel rows cols} (hp : (s.marks.get p).detected = true) :
    ∃ i ∈ s.found.islands, i.label = (s.found.labels.get p : Int) ∧
      ∀ q, (s.found.labels.get q : Int) = i.label ↔ Joined plan.connectivity (sides s.marks) p q := by
  obtain ⟨_, _, hfound, _⟩ := Sighting.of_eq_ok_iff.1 hs
  have hsign : (sides s.marks).get p ≠ .background := by
    rw [sides, Grid.get_map, marks_get hs]
    rw [marks_get hs] at hp
    exact Threshold.sign_of_detected hp
  have hit : (hits s.marks).get p = true := by rw [hits, Grid.get_map, hp]
  have h0 : s.found.labels.get p ≠ 0 :=
    ((numbered hfound).labelled p).2 ⟨hsign, p, .refl p hsign, hit⟩
  obtain ⟨i, hi, hl⟩ := (exists_label_iff hfound).2 ⟨h0, p, rfl⟩
  refine ⟨i, hi, hl, ?_⟩
  intro q
  rw [hl, Int.natCast_inj]
  constructor
  · intro hq
    exact ((numbered hfound).shared p q h0 (hq ▸ h0)).1 hq.symm
  · intro hj
    have hq0 : s.found.labels.get q ≠ 0 :=
      ((numbered hfound).labelled q).2 ⟨hj.right, p, hj.symm, hit⟩
    exact (((numbered hfound).shared p q h0 hq0).2 hj).symm

/-- Where every island is large enough, one is kept if a pixel is detected. -/
theorem kept_ne_nil_of_detected (hmin : plan.minArea ≤ 1) {p : Pixel rows cols}
    (hp : (s.marks.get p).detected = true) : s.kept ≠ [] := by
  obtain ⟨_, _, hfound, hkept⟩ := Sighting.of_eq_ok_iff.1 hs
  obtain ⟨i, hi, hl, _⟩ := exists_island_of_detected hs hp
  -- the island of the pixel has at least that pixel
  have hone : 1 ≤ i.npix := by
    rw [(describes hfound hi).npix_eq]
    have hpos : 0 < {q | (s.found.labels.get q : Int) = i.label}.ncard :=
      (Set.ncard_pos (Set.toFinite _)).2 ⟨p, hl.symm⟩
    omega
  rw [hkept]
  exact List.ne_nil_of_mem (Island.mem_keepLarge.2 ⟨hi, hmin.trans hone⟩)

end Detected

section Kept
variable {plan : Plan Float} {s : Sighting rows cols Float} (hs : Sighting.of plan data = .ok s)
include hs

/-- The islands that are kept agree with the marks and the label map. -/
theorem kept_agreement :
    Agreement plan.connectivity plan.minArea data s.keptLabels s.marks s.kept := by
  obtain ⟨_, _, hfound, hkept⟩ := Sighting.of_eq_ok_iff.1 hs
  have hmem {i : Island Float} : i ∈ s.kept ↔ i ∈ s.found.islands ∧ plan.minArea ≤ i.npix := by
    rw [hkept]
    exact Island.mem_keepLarge
  constructor
  · intro i hi
    exact label_pos hfound (hmem.1 hi).1
  · rw [hkept]
    exact (label_increasing hfound).sublist List.filter_sublist
  · intro k
    constructor
    · rintro ⟨h0, p, rfl⟩
      rw [Sighting.keptLabels_get hs] at h0 ⊢
      split at h0
      · next hex =>
        rw [if_pos hex]
        exact hex
      · exact absurd rfl h0
    · rintro ⟨i, hi, hl⟩
      obtain ⟨h0, p, hp⟩ := (exists_label_iff hfound).1 ⟨i, (hmem.1 hi).1, hl⟩
      have := (Sighting.keptLabels_eq_iff hs hi p).2 (by rw [hp, hl])
      exact ⟨h0, p, by omega⟩
  · intro i hi
    simp only [Sighting.keptLabels_eq_iff hs hi]
    exact (describes hfound (hmem.1 hi).1).npix_eq
  · intro i hi
    exact (hmem.1 hi).2
  · intro i hi p hp
    rw [Sighting.keptLabels_eq_iff hs hi] at hp
    have hpos := label_pos hfound (hmem.1 hi).1
    have hside := sides_ne_of_label hs (p := p) (by omega)
    have hsign := (describes hfound (hmem.1 hi).1).sign_eq p hp
    rw [sides, Grid.get_map] at hsign
    exact ⟨decide_eq_true hside, hsign⟩
  · intro i hi
    have hpos := label_pos hfound (hmem.1 hi).1
    obtain ⟨h0, p, hp⟩ := (exists_label_iff (k := i.label.toNat) hfound).1
      ⟨i, (hmem.1 hi).1, by omega⟩
    have hp0 : s.found.labels.get p ≠ 0 := by omega
    -- the component of the island holds a detected pixel, which has the same label
    obtain ⟨_, q, hj, hq⟩ := ((numbered hfound).labelled p).1 hp0
    rw [hits, Grid.get_map] at hq
    obtain ⟨j, _, _, hpix⟩ := exists_island_of_detected hs hq
    have hq' := (hpix p).2 hj.symm
    have hq'' := (hpix q).2 (.refl q hj.right)
    refine ⟨q, (Sighting.keptLabels_eq_iff hs hi q).2 ?_, hq⟩
    omega
  · intro p hp h0
    obtain ⟨i, hi, hl, hpix⟩ := exists_island_of_detected hs hp
    have hj : Joined plan.connectivity (sides s.marks) p p := (hpix p).1 hl.symm
    refine ⟨hj, ?_⟩
    -- the island of `p` is dropped, or else the map would show it
    have hsmall : ¬plan.minArea ≤ i.npix := by
      intro hle
      have hshown := (Sighting.keptLabels_eq_iff hs (hmem.2 ⟨hi, hle⟩) p).2 hl.symm
      have hpos := label_pos hfound hi
      omega
    rw [(describes hfound hi).npix_eq] at hsmall
    simp only [hpix] at hsmall
    omega
  · intro p hp
    have h0 : s.found.labels.get p ≠ 0 := by
      intro h0
      rw [Sighting.keptLabels_get hs, h0, ite_self] at hp
      exact hp rfl
    have hside := sides_ne_of_label hs h0
    rw [marks_get hs] at hside
    exact Threshold.isFinite_of_sign_double hside

end Kept

/-- Whatever a survey that shows its label map comes to, label map, masks and
islands agree with each other. -/
theorem surveyBy_agreement (minimiser : Minimiser Float) (s : SearchSettings)
    (data : Grid rows cols Float) (r : Survey rows cols Float)
    (h : (s.surveyBy minimiser data).2 = .ok r) (hshow : s.labelMap = true) :
    ∃ c labels marks, Connectivity.ofCount? s.connectivity.toInt = some c ∧
      r.labels = some labels ∧ r.marks = some marks ∧
      Agreement c s.minArea.toInt data labels marks r.islands := by
  obtain ⟨c, hc, _, hr⟩ := SearchSettings.surveyBy_eq_ok_iff.1 h
  obtain ⟨found, islands, hs, hf, rfl⟩ := Survey.run_eq_ok_iff.1 hr
  refine ⟨c, found.keptLabels, found.marks, hc.connectivity, if_pos hshow, if_pos hshow, ?_⟩
  exact (kept_agreement hs).of_bare (Sighting.bare_of_fitted hf)

/-- Two bright spots and a dark one, beside a pixel that is not a number. -/
def speckled : Grid 2 5 Float :=
  ⟨#v[#v[9.0, 8.0, 0.0, 0.0, -9.0], #v[0.0, 0.0 / 0.0, 0.0, 7.0, -8.0]]⟩

/-- The marks of two spots above the background, of two pixels and of one, and of one below it. -/
def speckles : Grid 2 5 Mark :=
  let above : Mark := ⟨.above, true⟩
  let below : Mark := ⟨.below, true⟩
  let plain : Mark := ⟨.background, false⟩
  ⟨#v[#v[above, above, plain, plain, below], #v[plain, plain, plain, above, below]]⟩

/-- The spots, numbered. -/
def numberedSpeckles : Component.Labelling 2 5 :=
  ⟨⟨#v[#v[1, 1, 0, 0, 2], #v[0, 0, 0, 3, 2]]⟩, 3⟩

theorem label_speckles :
    Component.label .edges (sides speckles) (hits speckles) = numberedSpeckles := by
  cbv

/-- The islands of the spots, whatever the values of the image are. -/
theorem exists_islands_speckles {α : Type} [Scalar α] {data : Grid 2 5 α} {background : α}
    {barycentre : Bool} {m : IslandMap 2 5 α}
    (h : ofMarks .edges data speckles background barycentre = .ok m) :
    m.labels = numberedSpeckles.labels ∧ ∃ i j k, m.islands = [i, j, k] ∧
      (i.label = 1 ∧ i.sign = 1 ∧ i.npix = 2) ∧ (j.label = 2 ∧ j.sign = -1 ∧ j.npix = 2) ∧
      k.label = 3 ∧ k.sign = 1 ∧ k.npix = 1 := by
  have hlabels : m.labels = numberedSpeckles.labels := by rw [labels_eq h, label_speckles]
  have hlength : m.islands.length = 3 := by rw [islands_length h, label_speckles]; rfl
  obtain ⟨i, j, k, hislands⟩ := List.length_eq_three.1 hlength
  have hall := map_label_islands h
  rw [hislands] at hall
  obtain ⟨hi, hj, hk⟩ : i.label = 1 ∧ j.label = 2 ∧ k.label = 3 := by
    simpa [List.range_succ] using hall
  have hdescribes (i' : Island α) (hi' : i' ∈ [i, j, k]) :
      Describes numberedSpeckles.labels (sides speckles) i' :=
    hlabels ▸ describes h (hislands ▸ hi')
  have hsize (l : Int) : {p | (numberedSpeckles.labels.get p : Int) = l}.ncard =
      (Finset.univ.filter fun p => (numberedSpeckles.labels.get p : Int) = l).card := by
    rw [Set.ncard_eq_toFinset_card', Set.toFinset_ofPred]
  have hfirst := hdescribes i (by simp)
  have hsecond := hdescribes j (by simp)
  have hthird := hdescribes k (by simp)
  refine ⟨hlabels, i, j, k, hislands, ⟨hi, ?_, ?_⟩, ⟨hj, ?_, ?_⟩, hk, ?_, ?_⟩
  · exact (hfirst.sign_eq ⟨0, 0⟩ (by rw [hi]; rfl)).symm
  · rw [hfirst.npix_eq, hi, hsize]; rfl
  · exact (hsecond.sign_eq ⟨0, 4⟩ (by rw [hj]; rfl)).symm
  · rw [hsecond.npix_eq, hj, hsize]; rfl
  · exact (hthird.sign_eq ⟨1, 3⟩ (by rw [hk]; rfl)).symm
  · rw [hthird.npix_eq, hk, hsize]; rfl

/-- The settings that show the label map and drop single pixels, over a deviation that is given. -/
def shownSettings : SearchSettings :=
  { rms := some (.whole 1), clipRounds := .whole 0, labelMap := true, minArea := .whole 2 }

theorem shownSettings_accepted : shownSettings.Accepted .edges :=
  ⟨by decide +kernel, by decide, by decide, rfl, by decide +kernel, by decide, by decide, by decide⟩

theorem marks_speckled : ((shownSettings.planWith .edges).threshold
    (Levels.of (shownSettings.planWith .edges) speckled.toList).background).marks speckled =
      speckles := by
  decide +kernel

/-- A survey of the image finds the spots and drops the single pixel. -/
theorem exists_of_speckled : ∃ s i j,
    Sighting.of (shownSettings.planWith .edges) speckled = .ok s ∧ s.marks = speckles ∧
    s.kept = [i, j] ∧ (i.sign = 1 ∧ i.npix = 2) ∧ (j.sign = -1 ∧ j.npix = 2) ∧
    s.keptLabels.get ⟨1, 3⟩ = 0 := by
  obtain ⟨s, hs⟩ := Sighting.exists_of (shownSettings.planWith .edges) speckled
  obtain ⟨hlevels, hmarks, hfound, hkept⟩ := Sighting.of_eq_ok_iff.1 hs
  rw [hlevels, marks_speckled] at hmarks
  rw [hmarks] at hfound
  obtain ⟨hlabels, i, j, k, hislands, ⟨hi, hi'⟩, ⟨hj, hj'⟩, hk, hk'⟩ :=
    exists_islands_speckles hfound
  have hmin : (shownSettings.planWith .edges).minArea = 2 := rfl
  have hlarge : s.kept = [i, j] := by
    simp [hkept, hislands, Island.keepLarge, hmin, hi', hj', hk']
  refine ⟨s, i, j, hs, hmarks, hlarge, hi', hj', ?_⟩
  have hdropped : ¬∃ i' ∈ [i, j], i'.label = (3 : Int) := by
    simp [hi, hj]
  rw [Sighting.keptLabels_get hs, hlabels, hlarge]
  exact if_neg hdropped

/-- A survey of the image comes to an end with islands on both sides, and its results agree,
although the third spot is dropped. -/
theorem surveyBy_agreement_speckled :
    ∃ r, (shownSettings.surveyBy shownSettings.minimiser speckled).2 = .ok r ∧
      r.islands.map (fun i => (i.sign, i.npix)) = [(1, 2), (-1, 2)] ∧
      ∃ c labels marks, Connectivity.ofCount? shownSettings.connectivity.toInt = some c ∧
        r.labels = some labels ∧ r.marks = some marks ∧
        (marks.get ⟨1, 3⟩).detected = true ∧ labels.get ⟨1, 3⟩ = 0 ∧
        Agreement c shownSettings.minArea.toInt speckled labels marks r.islands := by
  obtain ⟨s, i, j, hs, hmarks, hkept, ⟨hi, hi'⟩, ⟨hj, hj'⟩, hlost⟩ := exists_of_speckled
  have hr : (shownSettings.surveyBy shownSettings.minimiser speckled).2 =
      .ok (s.conclude (shownSettings.planWith .edges) s.kept) :=
    (shownSettings_accepted.surveyBy_unfitted rfl hs).trans (if_pos rfl)
  obtain ⟨c, labels, marks, hc, hlabels, hmarks', hagree⟩ := surveyBy_agreement _ _ _ _ hr rfl
  refine ⟨_, hr, ?_, c, labels, marks, hc, hlabels, hmarks', ?_, ?_, hagree⟩
  · simp [Sighting.conclude, hkept, hi, hi', hj, hj']
  · rw [← Option.some.inj hmarks', hmarks]
    rfl
  · rw [← Option.some.inj hlabels]
    exact hlost

end SkySources
