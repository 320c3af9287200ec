import SkySources.Proofs.Survey.Outcome

/-!
# Surveys with settings that are accepted

Settings that make sense have a plan (`plan?_eq_ok_iff`), and a survey comes to
an end exactly if its settings have a plan, no whole number is too large, and the
run of the plan comes to an end (`surveyBy_eq_ok_iff`). Without fits a run does come
to an end, so nothing else can stop the survey (`surveyBy_unfitted`).
-/

namespace SkySources.SearchSettings

/-- The settings make sense, for pixels with so many neighbours. -/
structure Accepted (s : SearchSettings) (c : Connectivity) : Prop where
  thresholds : s.detection.isBelow s.analysis = false
  clipRounds : 0 ≤ s.clipRounds.toInt
  minArea : 0 ≤ s.minArea.toInt
  connectivity : Connectivity.ofCount? s.connectivity.toInt = some c
  rms : s.hasBadRms = false
  bins : 1 ≤ s.bins.toInt
  margin : 0 ≤ s.margin.toInt
  rounds : 1 ≤ s.rounds.toInt

variable {s : SearchSettings} {plan : Plan Float} {c : Connectivity} {rows cols : Nat}
  {minimiser : Minimiser Float} {data : Grid rows cols Float} {r : Survey rows cols Float}

theorem Accepted.plan?_eq (h : s.Accepted c) : s.plan? = .ok (s.planWith c) := by
  unfold plan?
  rw [h.connectivity, h.thresholds, h.rms]
  simp only [Bool.false_eq_true, if_false, if_neg (Int.not_lt.2 h.clipRounds),
    if_neg (Int.not_lt.2 h.minArea), if_neg (Int.not_lt.2 h.bins), if_neg (Int.not_lt.2 h.margin),
    if_neg (Int.not_lt.2 h.rounds)]

/-- Settings have a plan if they pass every check. -/
theorem plan?_eq_ok_iff : s.plan? = .ok plan ↔ ∃ c, s.Accepted c ∧ plan = s.planWith c := by
  constructor
  · intro h
    unfold plan? at h
    by_cases ht : s.detection.isBelow s.analysis = true
    · rw [if_pos ht] at h; cases h
    rw [if_neg ht] at h
    by_cases hr : s.clipRounds.toInt < 0
    · rw [if_pos hr] at h; cases h
    rw [if_neg hr] at h
    by_cases ha : s.minArea.toInt < 0
    · rw [if_pos ha] at h; cases h
    rw [if_neg ha] at h
    cases hc : Connectivity.ofCount? s.connectivity.toInt with
    | none => rw [hc] at h; cases h
    | some c =>
      simp only [hc] at h
      by_cases hb : s.hasBadRms = true
      · rw [if_pos hb] at h; cases h
      rw [if_neg hb] at h
      by_cases hbins : s.bins.toInt < 1
      · rw [if_pos hbins] at h; cases h
      rw [if_neg hbins] at h
      by_cases hm : s.margin.toInt < 0
      · rw [if_pos hm] at h; cases h
      rw [if_neg hm] at h
      by_cases hn : s.rounds.toInt < 1
      · rw [if_pos hn] at h; cases h
      rw [if_neg hn] at h
      cases h
      exact ⟨c, ⟨Bool.not_eq_true _ ▸ ht, Int.not_lt.1 hr, Int.not_lt.1 ha, hc,
        Bool.not_eq_true _ ▸ hb, Int.not_lt.1 hbins, Int.not_lt.1 hm, Int.not_lt.1 hn⟩, rfl⟩
  · rintro ⟨c, hc, rfl⟩
    exact hc.plan?_eq

/-- What a survey comes to, with settings that are accepted. -/
theorem Accepted.surveyBy_snd (h : s.Accepted c) : (s.surveyBy minimiser data).2 =
    if s.eventsUntilTooLarge? (s.planWith c) data.toList = none then
      (Survey.run minimiser (s.planWith c) data).2.mapError .survey
    else .error .tooLarge := by
  unfold surveyBy
  rw [h.plan?_eq]
  cases he : s.eventsUntilTooLarge? (s.planWith c) data.toList with
  | none => simp [he]
  | some events => simp [he]

/-- There is a place for every bin, or no bin is needed. -/
theorem hasHugeBins_eq_false (h : s.median = .binapprox → s.bins.toInt < placedBins)
    (values : List Float) : s.hasHugeBins values = false := by
  have htold : placedBins ≤ toldBins := by decide
  unfold hasHugeBins
  by_cases hm : s.median = .binapprox
  · have hplaced := h hm
    rw [decide_eq_false (not_le.2 hplaced), decide_eq_false (not_le.2 (hplaced.trans_le htold)),
      Bool.false_or, Bool.false_and, Bool.and_false]
  · rw [decide_eq_false hm, Bool.false_and, Bool.false_and]

/-- A survey is only stopped by a whole number that is too large for what it is needed for. -/
theorem eventsUntilTooLarge?_eq_none_iff {values : List Float} :
    s.eventsUntilTooLarge? plan values = none ↔
      s.hasHugeBins (Background.finite values) = false ∧
        (s.clipLimit.isHuge = true → Background.clips plan.clipping values = false) ∧
        (s.rms.map Quantity.isHuge).getD false = false ∧
        s.analysis.isHuge = false ∧ s.detection.isHuge = false := by
  unfold eventsUntilTooLarge?
  simp only [Bool.and_eq_true, Bool.or_eq_true]
  by_cases hbins : s.hasHugeBins (Background.finite values) = true
  · simp [hbins]
  · rw [if_neg hbins]
    by_cases hclip : s.clipLimit.isHuge = true ∧ Background.clips plan.clipping values = true
    · simp [hclip]
    · rw [if_neg hclip]
      by_cases hrms : (s.rms.map Quantity.isHuge).getD false = true
      · simp [hrms]
      · rw [if_neg hrms]
        simp_all

theorem surveyBy_eq_ok_iff : (s.surveyBy minimiser data).2 = .ok r ↔
    ∃ c, s.Accepted c ∧ s.eventsUntilTooLarge? (s.planWith c) data.toList = none ∧
      (Survey.run minimiser (s.planWith c) data).2 = .ok r := by
  constructor
  · intro h
    cases hp : s.plan? with
    | error e =>
      rw [surveyBy, hp] at h
      cases h
    | ok plan =>
      obtain ⟨c, hc, rfl⟩ := plan?_eq_ok_iff.1 hp
      rw [hc.surveyBy_snd] at h
      split at h
      · next he =>
        refine ⟨c, hc, he, ?_⟩
        cases hr : (Survey.run minimiser (s.planWith c) data).2 with
        | error e => rw [hr] at h; cases h
        | ok r' => rw [hr] at h; cases h; rfl
      · cases h
  · rintro ⟨c, hc, he, hr⟩
    rw [hc.surveyBy_snd, if_pos he, hr]
    rfl

/-- With settings that are accepted, a survey shows what is found in the image. -/
theorem Accepted.surveyBy_ok_iff (h : s.Accepted c) {found : Sighting rows cols Float}
    (hs : Sighting.of (s.planWith c) data = .ok found) : (s.surveyBy minimiser data).2 = .ok r ↔
      s.eventsUntilTooLarge? (s.planWith c) data.toList = none ∧
        ∃ islands, found.fitted minimiser (s.planWith c) data = .ok islands ∧
          found.conclude (s.planWith c) islands = r := by
  rw [surveyBy_eq_ok_iff]
  constructor
  · rintro ⟨c', hc', he, hrun⟩
    obtain rfl : c' = c := Option.some_injective _ (hc'.connectivity.symm.trans h.connectivity)
    obtain ⟨found', islands, hs', hf, hr⟩ := Survey.run_eq_ok_iff.1 hrun
    obtain rfl : found' = found := Except.ok.inj (hs'.symm.trans hs)
    exact ⟨he, islands, hf, hr.symm⟩
  · rintro ⟨he, islands, hf, rfl⟩
    exact ⟨c, h, he, Survey.run_eq_ok_iff.2 ⟨found, islands, hs, hf, rfl⟩⟩

/-- Without fits a survey shows what is found, unless a number is too large. -/
theorem Accepted.surveyBy_unfitted (h : s.Accepted c) (hfit : s.fitting = false)
    {found : Sighting rows cols Float} (hs : Sighting.of (s.planWith c) data = .ok found) :
    (s.surveyBy minimiser data).2 =
      if s.eventsUntilTooLarge? (s.planWith c) data.toList = none then
        .ok (found.conclude (s.planWith c) found.kept)
      else .error .tooLarge := by
  have hkept : found.fitted minimiser (s.planWith c) data = .ok found.kept :=
    Sighting.fitted_eq_ok_iff.2 (.inl ⟨hfit, rfl⟩)
  rw [h.surveyBy_snd, Survey.run_snd hs, hkept]
  rfl

end SkySources.SearchSettings
