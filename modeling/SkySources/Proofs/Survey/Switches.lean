import Mathlib
import SkySources.Proofs.Survey.Area

/-!
# Switches change nothing else

Some settings only choose what a survey adds to its results: the label map with
the masks, barycentres, fits, reports, and how many fits are made at once. Two
surveys that differ in such switches see the same background and the same
islands, and whatever both of them add is the same.

What is proved:
  1. `ofMarks_barycentre`: islands with and without barycentres are the same but
     for these;
  2. `fitIsland_withoutCentre`: a fit never looks at a barycentre, so fits are
     the same with and without one;
  3. `Survey.agreeOn_run`, `Survey.obeys_run`: so two runs agree in what both were
     asked for, and an island has a fit or the note that it has none exactly if fits
     were asked for;
  4. `surveyBy_withSwitches`: the same of two surveys with settings, which also
     come to an end alike.
-/

namespace SkySources

/-- The settings that only choose what is added to a survey. -/
structure Switches where
  labelMap : Bool
  barycentre : Bool
  fitting : Bool
  debug : Bool
  workers : Option Count

/-! ## Barycentres -/

section
variable {α : Type} [Scalar α] {rows cols : Nat}

theorem Census.island_withoutCentre (c : Census α) (label : Int) (b b' : Bool) :
    (c.island label b').map Island.withoutCentre = (c.island label b).map Island.withoutCentre := by
  unfold island
  cases BoundingBox.make c.minRow c.maxRow c.minCol c.maxCol <;> rfl

/-- Whether barycentres are found changes nothing else of the islands. -/
theorem IslandMap.ofMarks_barycentre {c : Connectivity} {data : Grid rows cols α}
    {marks : Grid rows cols Mark} {background : α} {b b' : Bool} {m m' : IslandMap rows cols α}
    (h : ofMarks c data marks background b = .ok m)
    (h' : ofMarks c data marks background b' = .ok m') :
    m'.labels = m.labels ∧
      m'.islands.map Island.withoutCentre = m.islands.map Island.withoutCentre := by
  obtain ⟨hislands, hlabels⟩ := ofMarks_eq_ok_iff.1 h
  obtain ⟨hislands', hlabels'⟩ := ofMarks_eq_ok_iff.1 h'
  refine ⟨hlabels'.trans hlabels.symm, ?_⟩
  -- both lists come from the same censuses, which only differ in what they are asked for
  have hmap := congrArg (List.map (Except.map Island.withoutCentre)) hislands
  have hmap' := congrArg (List.map (Except.map Island.withoutCentre)) hislands'
  rw [hlabels', ← hlabels] at hmap'
  simp only [List.map_map, Function.comp_def, Census.island_withoutCentre _ _ b b'] at hmap hmap'
  apply map_ok_injective (ε := InvertedBox)
  simp only [List.map_map, Function.comp_def]
  exact hmap'.symm.trans hmap

theorem Island.keepLarge_withoutCentre (minArea : Int) (islands : List (Island α)) :
    keepLarge minArea (islands.map withoutCentre) =
      (keepLarge minArea islands).map withoutCentre := by
  rw [keepLarge, List.filter_map]
  rfl

/-! ## What is found -/

/-- A plan with other switches. -/
def Plan.switched (w : Switches) (plan : Plan α) : Plan α :=
  { plan with
    barycentre := w.barycentre
    fitting := w.fitting
    shows := w.labelMap
    workers := w.workers.map Count.toInt
    debug := w.debug }

namespace Sighting
variable {minimiser : Minimiser α} {plan : Plan α} {w : Switches} {data : Grid rows cols α}
  {s s' : Sighting rows cols α}

/-- The same is found, but for the barycentres of the islands. -/
structure Alike (s s' : Sighting rows cols α) : Prop where
  levels : s'.levels = s.levels
  marks : s'.marks = s.marks
  labels : s'.found.labels = s.found.labels
  kept : s'.kept.map Island.withoutCentre = s.kept.map Island.withoutCentre

theorem alike_switched (hs : of plan data = .ok s) (hs' : of (plan.switched w) data = .ok s') :
    s.Alike s' := by
  obtain ⟨hlevels, hmarks, hfound, hkept⟩ := of_eq_ok_iff.1 hs
  obtain ⟨hlevels', hmarks', hfound', hkept'⟩ := of_eq_ok_iff.1 hs'
  have hl : s'.levels = s.levels := hlevels'.trans hlevels.symm
  have hm : s'.marks = s.marks := by
    rw [hmarks', hmarks, hl]
    rfl
  rw [hl, hm] at hfound'
  obtain ⟨hlabels, hislands⟩ := IslandMap.ofMarks_barycentre hfound hfound'
  refine ⟨hl, hm, hlabels, ?_⟩
  calc s'.kept.map Island.withoutCentre
      = Island.keepLarge plan.minArea (s'.found.islands.map Island.withoutCentre) := by
        rw [hkept', Island.keepLarge_withoutCentre]
        rfl
    _ = Island.keepLarge plan.minArea (s.found.islands.map Island.withoutCentre) := by rw [hislands]
    _ = s.kept.map Island.withoutCentre := by rw [Island.keepLarge_withoutCentre, hkept]

/-- With barycentres in both, nothing is different. -/
theorem kept_switched (hb : w.barycentre = plan.barycentre) (hs : of plan data = .ok s)
    (hs' : of (plan.switched w) data = .ok s') : s'.kept = s.kept := by
  have h := alike_switched hs hs'
  obtain ⟨_, _, hfound, hkept⟩ := of_eq_ok_iff.1 hs
  obtain ⟨_, _, hfound', hkept'⟩ := of_eq_ok_iff.1 hs'
  rw [h.levels, h.marks] at hfound'
  change IslandMap.ofMarks _ _ _ _ w.barycentre = _ at hfound'
  rw [hb] at hfound'
  have hsame : s'.found = s.found := Except.ok.inj (hfound'.symm.trans hfound)
  rw [hkept', hsame, hkept]
  rfl

theorem Alike.keptLabels_eq (h : s.Alike s') (hs : of plan data = .ok s)
    (hs' : of (plan.switched w) data = .ok s') : s'.keptLabels = s.keptLabels := by
  have hlabel : s'.kept.map Island.label = s.kept.map Island.label := by
    have := congrArg (List.map Island.label) h.kept
    rwa [List.map_map, List.map_map] at this
  apply Grid.ext_get
  intro p
  rw [keptLabels_get hs', keptLabels_get hs, h.labels]
  simp only [← List.mem_map (f := Island.label), hlabel]

/-! ## Fits -/

/-- A fit never looks at a barycentre. -/
theorem fitIsland_withoutCentre (labels : Grid rows cols Nat) (mean : α) (i : Island α) :
    fitIsland minimiser plan data labels mean i.withoutCentre =
      (fitIsland minimiser plan data labels mean i).map Island.withoutCentre := by
  show (Fit.ofIsland minimiser plan.differencing plan.margin data (some (labels.map Int.ofNat)) mean
    i).map _ = _
  rw [fitIsland]
  cases Fit.ofIsland minimiser plan.differencing plan.margin data (some (labels.map Int.ofNat)) mean
    i <;> rfl

/-- Fits that are made either way are the same. -/
theorem Alike.mapM_fitIsland (h : s.Alike s') (minimiser : Minimiser α) (plan : Plan α)
    (w : Switches) (data : Grid rows cols α) :
    (s'.kept.mapM (fitIsland minimiser (plan.switched w) data s'.found.labels
        s'.levels.background.mean)).map (List.map Island.withoutCentre) =
      (s.kept.mapM (fitIsland minimiser plan data s.found.labels
        s.levels.background.mean)).map (List.map Island.withoutCentre) := by
  have hcentre (t : Sighting rows cols α) :
      (t.kept.mapM (fitIsland minimiser plan data s.found.labels
        s.levels.background.mean)).map (List.map Island.withoutCentre) =
      (t.kept.map Island.withoutCentre).mapM (fitIsland minimiser plan data s.found.labels
        s.levels.background.mean) := by
    rw [map_mapM, List.mapM_map]
    congr 1
    funext i
    exact (fitIsland_withoutCentre _ _ i).symm
  rw [h.labels, h.levels, hcentre s, ← h.kept, ← hcentre s']
  rfl

/-- An island whose fit was tried has a fit, or the note that it has none. -/
theorem isSome_fit_of_fitIsland {labels : Grid rows cols Nat} {mean : α} {i j : Island α}
    (h : fitIsland minimiser plan data labels mean i = .ok j) : j.fit.isSome = !j.fitFailed := by
  unfold fitIsland at h
  cases hf : Fit.ofIsland minimiser plan.differencing plan.margin data
      (some (labels.map Int.ofNat)) mean i with
  | error e => rw [hf] at h; cases h
  | ok o =>
    rw [hf] at h
    cases h
    cases o <;> rfl

end Sighting

/-! ## Two runs -/

namespace Survey

/-- What the switches ask for is what a survey has. -/
structure Obeys (w : Switches) (r : Survey rows cols α) : Prop where
  labels : r.labels.isSome = w.labelMap
  marks : r.marks.isSome = w.labelMap
  /-- Every island has a fit, or else the note that it has none. -/
  tried : w.fitting = true → ∀ i ∈ r.islands, i.fit.isSome = !i.fitFailed
  untried : w.fitting = false → ∀ i ∈ r.islands, i.fit = none ∧ i.fitFailed = false

/-- Two surveys agree in everything that both were asked for. -/
structure AgreeOn (v w : Switches) (r r' : Survey rows cols α) : Prop where
  background : r'.background = r.background
  /-- The islands are the same, but for barycentres and fits. -/
  islands : r'.islands.map (fun i => i.withoutCentre.bare) =
    r.islands.map fun i => i.withoutCentre.bare
  /-- If both have barycentres, they differ in fits at most. -/
  centres : v.barycentre = true → w.barycentre = true →
    r'.islands.map Island.bare = r.islands.map Island.bare
  /-- If both have fits, they differ in barycentres at most. -/
  fits : v.fitting = true → w.fitting = true →
    r'.islands.map Island.withoutCentre = r.islands.map Island.withoutCentre
  labels : v.labelMap = true → w.labelMap = true → r'.labels = r.labels
  marks : v.labelMap = true → w.labelMap = true → r'.marks = r.marks

variable {minimiser : Minimiser α} {plan : Plan α} {v w : Switches} {data : Grid rows cols α}
  {r r' : Survey rows cols α}

theorem obeys_run (h : (run minimiser (plan.switched w) data).2 = .ok r) : r.Obeys w := by
  obtain ⟨s, islands, hs, hf, rfl⟩ := run_eq_ok_iff.1 h
  obtain ⟨_, _, hfound, hkept⟩ := Sighting.of_eq_ok_iff.1 hs
  refine ⟨?_, ?_, ?_, ?_⟩
  · show (if w.labelMap then some s.keptLabels else none).isSome = w.labelMap
    cases w.labelMap <;> rfl
  · show (if w.labelMap then some s.marks else none).isSome = w.labelMap
    cases w.labelMap <;> rfl
  · intro hw j hj
    -- every island comes from an attempt
    obtain ⟨i, _, hi⟩ := exists_of_mem_mapM (Sighting.mapM_of_fitted hw hf) hj
    exact Sighting.isSome_fit_of_fitIsland hi
  · intro hw j hj
    change j ∈ islands at hj
    rw [Sighting.eq_kept_of_fitted hw hf, hkept, Island.mem_keepLarge] at hj
    exact (IslandMap.describes hfound hj.1).no_fit

/-- Two runs whose plans differ in switches only agree in what both are asked for. -/
theorem agreeOn_run (h : (run minimiser (plan.switched v) data).2 = .ok r)
    (h' : (run minimiser (plan.switched w) data).2 = .ok r') : AgreeOn v w r r' := by
  obtain ⟨s, islands, hs, hf, rfl⟩ := run_eq_ok_iff.1 h
  obtain ⟨s', islands', hs', hf', rfl⟩ := run_eq_ok_iff.1 h'
  have hswitch : plan.switched w = (plan.switched v).switched w := rfl
  rw [hswitch] at hs' hf'
  have halike := Sighting.alike_switched hs hs'
  have hbare := Sighting.bare_of_fitted hf
  have hbare' := Sighting.bare_of_fitted hf'
  refine ⟨?_, ?_, ?_, ?_, ?_, ?_⟩
  · show s'.levels.background = s.levels.background
    rw [halike.levels]
  · have hcentre (l : List (Island α)) : l.map (fun i => i.withoutCentre.bare) =
        (l.map Island.bare).map Island.withoutCentre := by
      rw [List.map_map]
      rfl
    have hkept := congrArg (List.map Island.bare) halike.kept
    rw [List.map_map, List.map_map] at hkept
    show islands'.map _ = islands.map _
    rw [hcentre, hcentre, hbare', hbare, ← hcentre, ← hcentre]
    exact hkept
  · intro hv hw
    show islands'.map Island.bare = islands.map Island.bare
    rw [hbare', hbare, Sighting.kept_switched (hw.trans hv.symm) hs hs']
  · intro hv hw
    have hmap := halike.mapM_fitIsland minimiser (plan.switched v) w data
    rw [Sighting.mapM_of_fitted hv hf, Sighting.mapM_of_fitted hw hf'] at hmap
    exact Except.ok.inj hmap
  · intro hv hw
    show (if w.labelMap then some s'.keptLabels else none) =
      if v.labelMap then some s.keptLabels else none
    rw [hv, hw, halike.keptLabels_eq hs hs']
  · intro hv hw
    show (if w.labelMap then some s'.marks else none) = if v.labelMap then some s.marks else none
    rw [hv, hw, halike.marks]

end Survey
end

/-! ## Settings -/

namespace SearchSettings
variable {s : SearchSettings} {v w : Switches} {c : Connectivity} {rows cols : Nat}

/-- The settings with other switches. -/
def withSwitches (w : Switches) (s : SearchSettings) : SearchSettings :=
  { s with
    labelMap := w.labelMap
    barycentre := w.barycentre
    fitting := w.fitting
    debug := w.debug
    workers := w.workers }

/-- Switches are never looked at when settings are checked. -/
theorem Accepted.withSwitches (h : s.Accepted c) (w : Switches) : (s.withSwitches w).Accepted c :=
  ⟨h.thresholds, h.clipRounds, h.minArea, h.connectivity, h.rms, h.bins, h.margin, h.rounds⟩

/-- Reports do not decide whether a number is too large. -/
theorem eventsUntilTooLarge?_withSwitches (w : Switches) (values : List Float) :
    (s.withSwitches w).eventsUntilTooLarge? ((s.withSwitches w).planWith c) values = none ↔
      s.eventsUntilTooLarge? (s.planWith c) values = none := by
  rw [eventsUntilTooLarge?_eq_none_iff, eventsUntilTooLarge?_eq_none_iff]
  rfl

/-- A survey with settings that are accepted comes to an end, if its minimiser counts
and somebody is there to make the fits. -/
theorem Accepted.exists_surveyBy {minimiser : Minimiser Float} {data : Grid rows cols Float}
    (hc : s.Accepted c) (hu : ∀ problem start, minimiser problem start ≠ .error .uncountable)
    (hw : ∀ n, s.workers = some n → 1 ≤ n.toInt)
    (he : s.eventsUntilTooLarge? (s.planWith c) data.toList = none) :
    ∃ r, (s.surveyBy minimiser data).2 = .ok r := by
  obtain ⟨found, hfound⟩ := Sighting.exists_of (s.planWith c) data
  obtain ⟨islands, hi⟩ := Sighting.exists_fitted hfound hu hc.margin (hasWorkers_planWith hw)
  have hr := Survey.run_eq_ok_iff.2 ⟨found, islands, hfound, hi, rfl⟩
  exact ⟨_, surveyBy_eq_ok_iff.2 ⟨c, hc, he, hr⟩⟩

/-- Two surveys whose settings differ in switches only: each has what its switches
ask for, and they agree in everything that both were asked for. With a minimiser that
counts and somebody to make the fits, both come to an end, or a number is too large
for a double in both. -/
theorem surveyBy_withSwitches (minimiser : Minimiser Float) (s : SearchSettings) (v w : Switches)
    (c : Connectivity) (data : Grid rows cols Float) (hc : s.Accepted c) :
    (∀ r r', ((s.withSwitches v).surveyBy minimiser data).2 = .ok r →
      ((s.withSwitches w).surveyBy minimiser data).2 = .ok r' →
      r.Obeys v ∧ r'.Obeys w ∧ Survey.AgreeOn v w r r') ∧
    ((∀ problem start, minimiser problem start ≠ .error .uncountable) →
      (∀ n, v.workers = some n → 1 ≤ n.toInt) → (∀ n, w.workers = some n → 1 ≤ n.toInt) →
      (s.eventsUntilTooLarge? (s.planWith c) data.toList = none →
        ∃ r r', ((s.withSwitches v).surveyBy minimiser data).2 = .ok r ∧
          ((s.withSwitches w).surveyBy minimiser data).2 = .ok r') ∧
      (s.eventsUntilTooLarge? (s.planWith c) data.toList ≠ none →
        ((s.withSwitches v).surveyBy minimiser data).2 = .error .tooLarge ∧
          ((s.withSwitches w).surveyBy minimiser data).2 = .error .tooLarge)) := by
  have hrun {w : Switches} {r : Survey rows cols Float}
      (h : ((s.withSwitches w).surveyBy minimiser data).2 = .ok r) :
      (Survey.run minimiser ((s.planWith c).switched w) data).2 = .ok r := by
    obtain ⟨c', hc', _, hr⟩ := surveyBy_eq_ok_iff.1 h
    have hsame : some c' = some c := hc'.connectivity.symm.trans hc.connectivity
    cases hsame
    exact hr
  constructor
  · intro r r' hr hr'
    exact ⟨Survey.obeys_run (hrun hr), Survey.obeys_run (hrun hr'),
      Survey.agreeOn_run (hrun hr) (hrun hr')⟩
  · intro hu hv hw
    have hnone (w : Switches) := eventsUntilTooLarge?_withSwitches (s := s) (c := c) w data.toList
    constructor
    · intro he
      obtain ⟨r, hr⟩ := (hc.withSwitches v).exists_surveyBy hu hv ((hnone v).2 he)
      obtain ⟨r', hr'⟩ := (hc.withSwitches w).exists_surveyBy hu hw ((hnone w).2 he)
      exact ⟨r, r', hr, hr'⟩
    · intro he
      rw [(hc.withSwitches v).surveyBy_snd, (hc.withSwitches w).surveyBy_snd,
        if_neg (mt (hnone v).1 he), if_neg (mt (hnone w).1 he)]
      exact ⟨rfl, rfl⟩

/-- Fits, reports and nothing else, with nobody in particular to make the fits. -/
def fitsOnly : Switches := ⟨false, false, true, true, none⟩

/-- Everything but reports, with two to make the fits. -/
def allQuiet : Switches := ⟨true, true, true, false, some (.whole 2)⟩

/-- Two surveys of an image, one with fits alone and one with everything: both have three islands,
of which one has a fit. -/
theorem surveyBy_withSwitches_speckled : fittingSettings.Accepted .edges ∧
    ∃ r r', ((fittingSettings.withSwitches fitsOnly).surveyBy sameAnswer speckled).2 = .ok r ∧
      ((fittingSettings.withSwitches allQuiet).surveyBy sameAnswer speckled).2 = .ok r' ∧
      r.Obeys fitsOnly ∧ r'.Obeys allQuiet ∧ Survey.AgreeOn fitsOnly allQuiet r r' ∧
      r.islands.map gist = [(1, 2, true), (-1, 2, false), (1, 1, false)] := by
  have hwith : fittingSettings.withSwitches allQuiet = fittingSettings := rfl
  obtain ⟨hagree, hends⟩ := surveyBy_withSwitches sameAnswer fittingSettings fitsOnly allQuiet .edges
    speckled fittingSettings_accepted
  have hworkers (n : Count) (hn : allQuiet.workers = some n) : 1 ≤ n.toInt := by
    cases hn
    decide
  obtain ⟨r, r', hr, hr'⟩ := (hends sameAnswer_ne_uncountable nofun hworkers).1 (by decide +kernel)
  obtain ⟨hobeys, hobeys', hsame⟩ := hagree r r' hr hr'
  refine ⟨fittingSettings_accepted, r, r', hr, hr', hobeys, hobeys', hsame, ?_⟩
  obtain ⟨found, hfound, hgist⟩ := exists_survey_speckled
  obtain rfl : r' = found := Except.ok.inj (hr'.symm.trans (hwith ▸ hfound))
  have hcentres := congrArg (List.map gist) (hsame.fits rfl rfl)
  rw [List.map_map, List.map_map] at hcentres
  exact hcentres.symm.trans hgist

end SearchSettings
end SkySources
