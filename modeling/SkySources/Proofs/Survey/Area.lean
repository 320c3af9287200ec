import Mathlib
import SkySources.Proofs.Survey.Accepted
import SkySources.Proofs.Survey.Agreement
import SkySources.Proofs.Survey.Outcome

/-!
# Small islands can be dropped afterwards

Two surveys that differ only in the fewest pixels of an island see the same
background, marks and islands, and fit each island in the same surroundings, the
dropped islands included. So the stricter survey is the other one without its
small islands (`Survey.restricted`).

What is proved:
  1. `fitted_withArea`: if the fits of the larger list come to an end, then so
     do those of the smaller one, with the same outcomes;
  2. `withoutSmall_keptLabels`: the label map loses the pixels of the small
     islands and nothing else;
  3. `exists_fitIsland`: only a minimiser that cannot count its evaluations stops
     a survey;
  4. `surveyBy_withArea`: so one survey is the other one, restricted.
-/

namespace SkySources

namespace IslandMap
variable {α : Type} {rows cols : Nat}

/-- A label map in which the islands of less than so many pixels are zero. -/
def withoutSmall (minArea : Int) (islands : List (Island α)) (labels : Grid rows cols Nat) :
    Grid rows cols Nat :=
  labels.map fun k : Nat => if ∃ i ∈ islands, i.label = (k : Int) ∧ i.npix < minArea then 0 else k

/-- Fits do not matter for that. -/
theorem withoutSmall_eq_of_bare {minArea : Int} {islands islands' : List (Island α)}
    (h : islands'.map Island.bare = islands.map Island.bare) (labels : Grid rows cols Nat) :
    withoutSmall minArea islands' labels = withoutSmall minArea islands labels := by
  have hbare (l : List (Island α)) (k : Int) : (∃ i ∈ l, i.label = k ∧ i.npix < minArea) ↔
      ∃ i ∈ l.map Island.bare, i.label = k ∧ i.npix < minArea := by
    simp only [List.mem_map, exists_exists_and_eq_and, Island.bare_label, Island.bare_npix]
  have hsmall (k : Int) : (∃ i ∈ islands', i.label = k ∧ i.npix < minArea) ↔
      ∃ i ∈ islands, i.label = k ∧ i.npix < minArea := by rw [hbare, h, ← hbare]
  apply Grid.ext_get
  intro p
  simp only [withoutSmall, Grid.get_map, hsmall]

end IslandMap

namespace Survey
variable {α : Type} {rows cols : Nat}

/-- A survey without its islands of less than so many pixels. -/
def restricted (minArea : Int) (r : Survey rows cols α) : Survey rows cols α :=
  { r with
    islands := Island.keepLarge minArea r.islands
    labels := r.labels.map (IslandMap.withoutSmall minArea r.islands) }

end Survey

namespace Island
variable {α : Type}

theorem keepLarge_keepLarge {m m' : Int} (h : m ≤ m') (islands : List (Island α)) :
    keepLarge m' (keepLarge m islands) = keepLarge m' islands := by
  rw [keepLarge, keepLarge, keepLarge, List.filter_filter]
  congr 1
  funext island
  by_cases hi : m' ≤ island.npix
  · simp [hi, Int.le_trans h hi]
  · simp [hi]

end Island

section
variable {α : Type} [Scalar α] {rows cols : Nat} {minimiser : Minimiser α} {plan : Plan α}
  {data : Grid rows cols α} {s : Sighting rows cols α} {m : Int}

namespace Sighting

/-- What is found with another fewest number of pixels. -/
def withArea (m : Int) (s : Sighting rows cols α) : Sighting rows cols α :=
  { s with kept := Island.keepLarge m s.found.islands }

theorem of_withArea (h : of plan data = .ok s) :
    of { plan with minArea := m } data = .ok (s.withArea m) := by
  obtain ⟨hlevels, hmarks, hfound, _⟩ := of_eq_ok_iff.1 h
  exact of_eq_ok_iff.2 ⟨hlevels, hmarks, hfound, rfl⟩

theorem kept_withArea (h : of plan data = .ok s) (hm : plan.minArea ≤ m) :
    (s.withArea m).kept = Island.keepLarge m s.kept := by
  obtain ⟨_, _, _, hkept⟩ := of_eq_ok_iff.1 h
  rw [hkept, Island.keepLarge_keepLarge hm]
  rfl

/-- The fits of an island do not depend on the fewest number of pixels. -/
theorem fitted_withArea {islands : List (Island α)} (h : of plan data = .ok s)
    (hm : plan.minArea ≤ m) (hf : s.fitted minimiser plan data = .ok islands) :
    (s.withArea m).fitted minimiser { plan with minArea := m } data =
      .ok (Island.keepLarge m islands) := by
  have hkept := kept_withArea h hm
  rw [fitted_eq_ok_iff, hkept]
  rcases fitted_eq_ok_iff.1 hf with ⟨hfit, rfl⟩ | ⟨hfit, hw, hmap⟩
  · exact .inl ⟨hfit, rfl⟩
  · refine .inr ⟨hfit, hw.imp_left fun h0 => by rw [h0]; rfl, ?_⟩
    apply mapM_filter_eq_ok _ hmap
    intro i j hj
    rw [← Island.bare_npix, bare_of_fitIsland hj, Island.bare_npix]

/-- The label map loses the pixels of the small islands. -/
theorem withoutSmall_keptLabels (h : of plan data = .ok s) (hm : plan.minArea ≤ m) :
    IslandMap.withoutSmall m s.kept s.keptLabels = (s.withArea m).keptLabels := by
  obtain ⟨_, _, hfound, hkept⟩ := of_eq_ok_iff.1 h
  have hlarge {i : Island α} : i ∈ (s.withArea m).kept ↔ i ∈ s.kept ∧ m ≤ i.npix := by
    rw [kept_withArea h hm, Island.mem_keepLarge]
  -- a label belongs to one island, so a pixel is lost with its own island only
  have hsame {i j : Island α} (hi : i ∈ s.kept) (hj : j ∈ s.kept) (hij : i.label = j.label) :
      i = j := by
    rw [hkept, Island.mem_keepLarge] at hi hj
    exact IslandMap.label_injective hfound hi.1 hj.1 hij
  apply Grid.ext_get
  intro p
  rw [keptLabels_get (of_withArea h), IslandMap.withoutSmall, Grid.get_map, keptLabels_get h]
  change _ = if ∃ i ∈ (s.withArea m).kept, i.label = (s.found.labels.get p : Int) then
    s.found.labels.get p else 0
  by_cases hk : ∃ i ∈ s.kept, i.label = (s.found.labels.get p : Int)
  · rw [if_pos hk]
    obtain ⟨i, hi, hl⟩ := hk
    by_cases hbig : m ≤ i.npix
    · have hno : ¬∃ j ∈ s.kept, j.label = (s.found.labels.get p : Int) ∧ j.npix < m := by
        rintro ⟨j, hj, hjl, hsmall⟩
        rw [hsame hj hi (by rw [hjl, hl])] at hsmall
        omega
      rw [if_neg hno, if_pos ⟨i, hlarge.2 ⟨hi, hbig⟩, hl⟩]
    · have hno : ¬∃ j ∈ (s.withArea m).kept, j.label = (s.found.labels.get p : Int) := by
        rintro ⟨j, hj, hjl⟩
        rw [hlarge] at hj
        rw [hsame hj.1 hi (by rw [hjl, hl])] at hj
        exact hbig hj.2
      rw [if_pos ⟨i, hi, hl, Int.not_le.1 hbig⟩, if_neg hno]
  · rw [if_neg hk, ite_self, if_neg]
    rintro ⟨j, hj, hjl⟩
    exact hk ⟨j, (hlarge.1 hj).1, hjl⟩

/-- Only a minimiser that cannot count its evaluations stops a fit. -/
theorem exists_fitIsland (hu : ∀ problem start, minimiser problem start ≠ .error .uncountable)
    (hmargin : 0 ≤ plan.margin) {labels : Grid rows cols Nat} {mean : α} {i : Island α}
    (hin : (0 ≤ i.box.minRow ∧ i.box.maxRow < rows) ∧ 0 ≤ i.box.minCol ∧ i.box.maxCol < cols) :
    ∃ j, fitIsland minimiser plan data labels mean i = .ok j := by
  have hrows := i.box.rows_le
  have hcols := i.box.cols_le
  -- a box inside the grid that is grown and clipped is not inverted
  have hbox : ∃ box, i.box.padded plan.margin rows cols = .ok box := by
    rw [BoundingBox.padded, BoundingBox.make, dif_pos (by omega)]
    exact ⟨_, rfl⟩
  obtain ⟨box, hbox⟩ := hbox
  rw [fitIsland, Fit.ofIsland, hbox]
  simp only [Fit.ofRegion]
  cases Fit.select data (some (labels.map Int.ofNat)) i mean box with
  | error failure => exact ⟨_, rfl⟩
  | ok points =>
    simp only
    have hne := hu (Residuals.ofObservations plan.differencing points)
      (Fit.initialGuess i mean).toList
    cases hr : minimiser (Residuals.ofObservations plan.differencing points)
        (Fit.initialGuess i mean).toList with
    | ok o => exact ⟨_, rfl⟩
    | error e =>
      cases e with
      | uncountable => exact absurd hr hne
      | refused text => exact ⟨_, rfl⟩

/-- Fits come to an end if the minimiser counts and somebody is there to make them. -/
theorem exists_fitted (h : of plan data = .ok s)
    (hu : ∀ problem start, minimiser problem start ≠ .error .uncountable)
    (hmargin : 0 ≤ plan.margin) (hw : hasWorkers plan = true) :
    ∃ islands, s.fitted minimiser plan data = .ok islands := by
  obtain ⟨_, _, hfound, hkept⟩ := of_eq_ok_iff.1 h
  cases hfit : plan.fitting with
  | false => exact ⟨s.kept, fitted_eq_ok_iff.2 (.inl ⟨hfit, rfl⟩)⟩
  | true =>
    have hall : ∀ i ∈ s.kept, ∃ j, fitIsland minimiser plan data s.found.labels
        s.levels.background.mean i = .ok j := by
      intro i hi
      rw [hkept, Island.mem_keepLarge] at hi
      exact exists_fitIsland hu hmargin (IslandMap.describes hfound hi.1).inside
    obtain ⟨islands, hi⟩ := exists_mapM_eq_ok hall
    exact ⟨islands, fitted_eq_ok_iff.2 (.inr ⟨hfit, .inr hw, hi⟩)⟩

end Sighting

/-! ## Two surveys -/

namespace Survey

/-- A run with more pixels asked of an island is the other run without its small
islands. -/
theorem run_withArea {r : Survey rows cols α} (hm : plan.minArea ≤ m)
    (h : (run minimiser plan data).2 = .ok r) :
    (run minimiser { plan with minArea := m } data).2 = .ok (r.restricted m) := by
  obtain ⟨s, islands, hs, hf, rfl⟩ := run_eq_ok_iff.1 h
  refine run_eq_ok_iff.2 ⟨s.withArea m, Island.keepLarge m islands, Sighting.of_withArea hs,
    Sighting.fitted_withArea hs hm hf, ?_⟩
  unfold restricted Sighting.conclude
  simp only [Survey.mk.injEq, true_and]
  refine ⟨rfl, ?_, rfl⟩
  cases plan.shows with
  | false => rfl
  | true =>
    simp only [if_true, Option.map_some, Option.some.injEq]
    rw [IslandMap.withoutSmall_eq_of_bare (Sighting.bare_of_fitted hf),
      Sighting.withoutSmall_keptLabels hs hm]

end Survey
end

namespace SearchSettings
variable {s : SearchSettings} {m : Count} {c : Connectivity} {rows cols : Nat}

/-- The settings with another fewest number of pixels. -/
def withArea (m : Count) (s : SearchSettings) : SearchSettings := { s with minArea := m }

theorem Accepted.withArea (h : s.Accepted c) (hm : s.minArea.toInt ≤ m.toInt) :
    (s.withArea m).Accepted c :=
  ⟨h.thresholds, h.clipRounds, Int.le_trans h.minArea hm, h.connectivity, h.rms, h.bins, h.margin,
    h.rounds⟩

theorem planWith_withArea :
    (s.withArea m).planWith c = { s.planWith c with minArea := m.toInt } := rfl

theorem eventsUntilTooLarge?_withArea (data : List Float) :
    (s.withArea m).eventsUntilTooLarge? ((s.withArea m).planWith c) data =
      s.eventsUntilTooLarge? (s.planWith c) data := rfl

theorem hasWorkers_planWith (h : ∀ n, s.workers = some n → 1 ≤ n.toInt) :
    Sighting.hasWorkers (s.planWith c) = true := by
  unfold Sighting.hasWorkers planWith
  cases hw : s.workers with
  | none => rfl
  | some n => exact decide_eq_true (Int.lt_of_lt_of_le Int.zero_lt_one (h n hw))

/-- If more pixels are asked of an island, the survey is the same without its small
islands: background, marks, fits and all else of the other islands stay, and the
label map only loses the pixels of the islands that are dropped. A survey that
comes to an end still does, and with a minimiser that counts and somebody to make
the fits, the two surveys fail alike as well. -/
theorem surveyBy_withArea (minimiser : Minimiser Float) (s : SearchSettings) (m : Count)
    (c : Connectivity) (data : Grid rows cols Float) (hc : s.Accepted c)
    (hm : s.minArea.toInt ≤ m.toInt) :
    (∀ r, (s.surveyBy minimiser data).2 = .ok r →
      ((s.withArea m).surveyBy minimiser data).2 = .ok (r.restricted m.toInt)) ∧
    ((∀ problem start, minimiser problem start ≠ .error .uncountable) →
      (∀ n, s.workers = some n → 1 ≤ n.toInt) →
      ((s.withArea m).surveyBy minimiser data).2 =
        (s.surveyBy minimiser data).2.map (Survey.restricted m.toInt)) := by
  have hc' : (s.withArea m).Accepted c := hc.withArea hm
  have hrun {r : Survey rows cols Float} (hr : (Survey.run minimiser (s.planWith c) data).2 = .ok r) :
      (Survey.run minimiser ((s.withArea m).planWith c) data).2 = .ok (r.restricted m.toInt) := by
    have hm' : (s.planWith c).minArea ≤ m.toInt := hm
    rw [planWith_withArea]
    exact Survey.run_withArea hm' hr
  rw [hc.surveyBy_snd, hc'.surveyBy_snd, eventsUntilTooLarge?_withArea]
  generalize s.eventsUntilTooLarge? (s.planWith c) data.toList = huge
  constructor
  · intro r h
    cases huge with
    | some events => cases h
    | none =>
      rw [if_pos rfl] at h ⊢
      cases hr : (Survey.run minimiser (s.planWith c) data).2 with
      | error e => rw [hr] at h; cases h
      | ok r' =>
        rw [hr] at h
        cases h
        rw [hrun hr]
        rfl
  · intro hu hw
    obtain ⟨found, hfound⟩ := Sighting.exists_of (s.planWith c) data
    obtain ⟨islands, hi⟩ := Sighting.exists_fitted hfound hu hc.margin (hasWorkers_planWith hw)
    have hr := Survey.run_eq_ok_iff.2 ⟨found, islands, hfound, hi, rfl⟩
    cases huge with
    | some events => rfl
    | none =>
      rw [hr, hrun hr]
      rfl

/-- The settings that fit Gaussians with a margin by two, and show the label map, over a deviation
that is given. -/
def fittingSettings : SearchSettings :=
  { rms := some (.whole 1), clipRounds := .whole 0, median := .binapprox, fitting := true
    labelMap := true, margin := .whole 2, workers := some (.whole 2) }

theorem fittingSettings_accepted : fittingSettings.Accepted .edges :=
  ⟨by decide +kernel, by decide, by decide, rfl, by decide +kernel, by decide, by decide, by decide⟩

/-- A search that always ends with the same round Gaussian in the corner of an image. -/
def sameAnswer : Minimiser Float := fun _ _ => .ok ⟨[8.0, 0.0, 0.0, 1.0, 1.0, 0.0], true, 1, 0.5, ""⟩

theorem sameAnswer_ne_uncountable (problem : Residuals Float) (start : List Float) :
    sameAnswer problem start ≠ .error .uncountable := nofun

/-- What is told of an island here: its sign, how many pixels it has, and if it has a fit. -/
def gist (i : Island Float) : Int × Int × Bool := (i.sign, i.npix, i.fit.isSome)

/-- The spot in the corner is fitted; for the others the Gaussian is too far away or there are too
few pixels. -/
theorem exists_survey_speckled : ∃ r, (fittingSettings.surveyBy sameAnswer speckled).2 = .ok r ∧
    r.islands.map gist = [(1, 2, true), (-1, 2, false), (1, 1, false)] := by
  have hmarks : ((fittingSettings.planWith .edges).threshold
      (Levels.of (fittingSettings.planWith .edges) speckled.toList).background).marks speckled =
        speckles := by decide +kernel
  have hrun : (Survey.run sameAnswer (fittingSettings.planWith .edges) speckled).2.toOption.map
      (fun r => r.islands.map gist) = some [(1, 2, true), (-1, 2, false), (1, 1, false)] := by
    unfold Survey.run
    rw [Sighting.of_eq_ofLabelling hmarks label_speckles]
    decide +kernel
  rw [fittingSettings_accepted.surveyBy_snd, if_pos (by decide +kernel)]
  cases hr : (Survey.run sameAnswer (fittingSettings.planWith .edges) speckled).2 with
  | error e =>
    rw [hr] at hrun
    cases hrun
  | ok r =>
    rw [hr] at hrun
    exact ⟨r, rfl, Option.some.inj hrun⟩

/-- Dropping islands of one pixel from a survey is asking for two pixels: of three islands, one of
which has a fit, two are left, and the fit stays. -/
theorem surveyBy_withArea_speckled : fittingSettings.Accepted .edges ∧
    fittingSettings.minArea.toInt ≤ (Count.whole 2).toInt ∧
    ((fittingSettings.withArea (.whole 2)).surveyBy sameAnswer speckled).2 =
      (fittingSettings.surveyBy sameAnswer speckled).2.map (Survey.restricted 2) ∧
    ∃ r, (fittingSettings.surveyBy sameAnswer speckled).2 = .ok r ∧
      ((fittingSettings.withArea (.whole 2)).surveyBy sameAnswer speckled).2 =
        .ok (r.restricted 2) ∧
      r.islands.map gist = [(1, 2, true), (-1, 2, false), (1, 1, false)] ∧
      (r.restricted 2).islands.map gist = [(1, 2, true), (-1, 2, false)] := by
  obtain ⟨hfiltered, hsame⟩ := surveyBy_withArea sameAnswer fittingSettings (.whole 2) .edges speckled
    fittingSettings_accepted (by decide)
  obtain ⟨r, hr, hgist⟩ := exists_survey_speckled
  have hworkers (n : Count) (hn : fittingSettings.workers = some n) : 1 ≤ n.toInt := by
    cases hn
    decide
  have hlarge : (r.restricted 2).islands.map gist =
      (r.islands.map gist).filter fun g => decide (2 ≤ g.2.1) := by
    rw [List.filter_map]
    rfl
  refine ⟨fittingSettings_accepted, by decide, hsame sameAnswer_ne_uncountable hworkers, r, hr,
    hfiltered r hr, hgist, ?_⟩
  rw [hlarge, hgist]
  rfl

end SearchSettings
end SkySources
