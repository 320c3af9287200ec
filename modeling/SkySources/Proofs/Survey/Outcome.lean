import Mathlib
import SkySources.Settings.Plan
import SkySources.Proofs.Island.Found

/-!
# What a survey comes to

The reports of a survey never change what it comes to, so its outcome can be
read off the stages alone: what is found before the fits (`Sighting`) and the
islands with their fits (`Sighting.fitted`).

What is proved:
  1. `run_snd`: the outcome of a run, stage by stage;
  2. `exists_of`, `of_eq_ok_iff`: there is always something that is found, and it is
     made of the background, the marks and their islands;
  3. `bare_of_fitted`: fits change nothing of the islands but their fits
     (`Island.bare`);
  4. `keptLabels_get`: the label map that is shown is the map of all islands
     without the labels of dropped ones.
-/

namespace SkySources

namespace Island
variable {α : Type}

/-- An island without its fit. -/
def bare (i : Island α) : Island α := { i with fit := none, fitFailed := false }

@[simp] theorem bare_label (i : Island α) : i.bare.label = i.label := rfl
@[simp] theorem bare_npix (i : Island α) : i.bare.npix = i.npix := rfl

theorem mem_keepLarge {minArea : Int} {islands : List (Island α)} {i : Island α} :
    i ∈ keepLarge minArea islands ↔ i ∈ islands ∧ minArea ≤ i.npix := by
  rw [keepLarge, List.mem_filter, decide_eq_true_iff]

end Island

namespace Sighting
variable {α : Type} [Scalar α] {rows cols : Nat} {minimiser : Minimiser α} {plan : Plan α}
  {data : Grid rows cols α} {s : Sighting rows cols α}

/-- The attempt to fit an island, which may not be possible. -/
def fitIsland (minimiser : Minimiser α) (plan : Plan α) (data : Grid rows cols α)
    (labels : Grid rows cols Nat) (mean : α) (island : Island α) : Except FitFault (Island α) :=
  (Fit.ofIsland minimiser plan.differencing plan.margin data (some (labels.map Int.ofNat)) mean
    island).map fun outcome => island.withFit outcome.toOption

/-- The islands that are kept, with the outcomes of their fits. -/
def fitted (minimiser : Minimiser α) (plan : Plan α) (data : Grid rows cols α)
    (s : Sighting rows cols α) : Except SurveyFault (List (Island α)) :=
  if !s.isFitted plan then .ok s.kept
  else if !hasWorkers plan then .error .noWorkers
  else (s.kept.mapM (fitIsland minimiser plan data s.found.labels
    s.levels.background.mean)).mapError .fit

/-! ## What is found -/

/-- What is found is made of the background, the marks and their islands. -/
theorem of_eq_ok_iff : of plan data = .ok s ↔
    s.levels = Levels.of plan data.toList ∧
    s.marks = (plan.threshold s.levels.background).marks data ∧
    IslandMap.ofMarks plan.connectivity data s.marks s.levels.background.mean plan.barycentre =
      .ok s.found ∧
    s.kept = Island.keepLarge plan.minArea s.found.islands := by
  unfold of
  simp only [bind, Except.bind]
  constructor
  · intro h
    split at h
    · cases h
    · next found hfound =>
      cases h
      exact ⟨rfl, rfl, hfound, rfl⟩
  · cases s with
    | mk levels marks found kept =>
      simp only
      rintro ⟨rfl, rfl, hfound, rfl⟩
      rw [hfound]
      rfl

theorem exists_of (plan : Plan α) (data : Grid rows cols α) : ∃ s, of plan data = .ok s := by
  obtain ⟨m, hm⟩ := IslandMap.exists_ofMarks plan.connectivity data
    ((plan.threshold (Levels.of plan data.toList).background).marks data)
    (Levels.of plan data.toList).background.mean plan.barycentre
  unfold of
  simp only [hm, bind, Except.bind]
  exact ⟨_, rfl⟩

/-- What is found, from the marks and the labels of their components. -/
theorem of_eq_ofLabelling {marks : Grid rows cols Mark} {l : Component.Labelling rows cols}
    (hmarks : (plan.threshold (Levels.of plan data.toList).background).marks data = marks)
    (hlabel : Component.label plan.connectivity (IslandMap.sides marks) (IslandMap.hits marks) =
      l) :
    of plan data = (IslandMap.ofLabelling data (marks.map fun m => m.sign.toInt)
      (Levels.of plan data.toList).background.mean plan.barycentre l).map fun found =>
        ⟨Levels.of plan data.toList, marks, found, Island.keepLarge plan.minArea found.islands⟩ := by
  unfold of
  simp only [hmarks]
  rw [IslandMap.ofMarks, IslandMap.ofSigns, IslandMap.map_ofInt_sides, ← hlabel]
  rfl

/-! ## Fits -/

/-- Either no fit is made, or each island is fitted, if there is one. -/
theorem fitted_eq_ok_iff {islands : List (Island α)} :
    s.fitted minimiser plan data = .ok islands ↔
      (plan.fitting = false ∧ islands = s.kept) ∨
      (plan.fitting = true ∧ (s.kept = [] ∨ hasWorkers plan = true) ∧
        s.kept.mapM (fitIsland minimiser plan data s.found.labels s.levels.background.mean) =
          .ok islands) := by
  unfold fitted isFitted
  cases hf : plan.fitting with
  | false =>
    simp only [Bool.false_and, Bool.not_false, if_true, Except.ok.injEq, true_and,
      Bool.false_eq_true, false_and, or_false]
    exact eq_comm
  | true =>
    cases hk : s.kept with
    -- without an island nobody is asked to make a fit
    | nil => simp [pure, Except.pure]
    | cons i is =>
      cases hw : hasWorkers plan with
      | false => simp
      | true =>
        simp only [List.isEmpty_cons, Bool.not_false, Bool.and_self, Bool.not_true,
          Bool.false_eq_true, if_false, false_and, false_or, or_true, true_and, reduceCtorEq]
        cases (i :: is).mapM (fitIsland minimiser plan data s.found.labels
          s.levels.background.mean) with
        | error e => simp [Except.mapError]
        | ok found => simp [Except.mapError]

theorem eq_kept_of_fitted {islands : List (Island α)} (hfit : plan.fitting = false)
    (h : s.fitted minimiser plan data = .ok islands) : islands = s.kept := by
  rcases fitted_eq_ok_iff.1 h with ⟨_, rfl⟩ | ⟨hyes, _⟩
  · rfl
  · rw [hfit] at hyes
    cases hyes

theorem mapM_of_fitted {islands : List (Island α)} (hfit : plan.fitting = true)
    (h : s.fitted minimiser plan data = .ok islands) :
    s.kept.mapM (fitIsland minimiser plan data s.found.labels s.levels.background.mean) =
      .ok islands := by
  rcases fitted_eq_ok_iff.1 h with ⟨hno, _⟩ | ⟨_, _, hm⟩
  · rw [hfit] at hno
    cases hno
  · exact hm

/-- The attempts lead to the islands one by one. -/
theorem attempts_mapM (minimiser : Minimiser α) (plan : Plan α) (data : Grid rows cols α)
    (s : Sighting rows cols α) :
    ((s.attempts minimiser plan data).mapM id).map (List.map Attempt.island) =
      s.kept.mapM (fitIsland minimiser plan data s.found.labels s.levels.background.mean) := by
  rw [map_mapM, attempts, List.mapM_map]
  congr 1
  funext island
  simp only [Function.comp_apply, id, fitIsland]
  cases Fit.ofIsland minimiser plan.differencing plan.margin data
    (some (s.found.labels.map Int.ofNat)) s.levels.background.mean island <;> rfl

/-- A fit changes nothing of an island but its fit. -/
theorem bare_of_fitIsland {labels : Grid rows cols Nat} {mean : α} {i j : Island α}
    (h : fitIsland minimiser plan data labels mean i = .ok j) : j.bare = i.bare := by
  unfold fitIsland at h
  cases hf : Fit.ofIsland minimiser plan.differencing plan.margin data
      (some (labels.map Int.ofNat)) mean i with
  | error e => rw [hf] at h; cases h
  | ok o =>
    rw [hf] at h
    cases h
    rfl

theorem bare_of_fitted {islands : List (Island α)}
    (h : s.fitted minimiser plan data = .ok islands) :
    islands.map Island.bare = s.kept.map Island.bare := by
  rcases fitted_eq_ok_iff.1 h with ⟨_, rfl⟩ | ⟨_, _, hm⟩
  · rfl
  · exact map_eq_of_mapM_eq_ok (fun i j => bare_of_fitIsland) hm

/-! ## The label map in the end -/

section Kept
variable (hs : of plan data = .ok s)
include hs

/-- The label map that is shown only has the labels of islands that are kept. -/
theorem keptLabels_get (p : Pixel rows cols) : s.keptLabels.get p =
    if ∃ i ∈ s.kept, i.label = (s.found.labels.get p : Int) then s.found.labels.get p else 0 := by
  obtain ⟨_, _, hfound, hkept⟩ := of_eq_ok_iff.1 hs
  rw [keptLabels]
  split
  · next hd =>
    -- nothing is dropped, so every label in the map is kept
    have hle : s.found.islands.length ≤ s.kept.length := Nat.sub_eq_zero_iff_le.1 hd
    have hall : s.kept = s.found.islands := by
      rw [hkept, Island.keepLarge] at hle ⊢
      exact List.filter_sublist.eq_of_length_le hle
    by_cases h0 : s.found.labels.get p = 0
    · rw [h0, ite_self]
    · rw [if_pos]
      rw [hall]
      exact (IslandMap.exists_label_iff hfound).2 ⟨h0, p, rfl⟩
  · rw [IslandMap.onlyLabels, Grid.get_map]
    congr 1
    simp only [List.any_eq_true, decide_eq_true_eq, Int.ofNat_eq_natCast]

theorem keptLabels_eq_iff {i : Island α} (hi : i ∈ s.kept) (p : Pixel rows cols) :
    (s.keptLabels.get p : Int) = i.label ↔ (s.found.labels.get p : Int) = i.label := by
  obtain ⟨_, _, hfound, hkept⟩ := of_eq_ok_iff.1 hs
  rw [hkept, Island.mem_keepLarge] at hi
  have hpos : 0 < i.label := IslandMap.label_pos hfound hi.1
  rw [keptLabels_get hs]
  split
  · rfl
  · next hn =>
    constructor
    · intro h0
      omega
    · intro hl
      exact absurd ⟨i, hkept ▸ Island.mem_keepLarge.2 hi, hl.symm⟩ hn

end Kept
end Sighting

namespace Survey
variable {α : Type} [Scalar α] {rows cols : Nat} {minimiser : Minimiser α} {plan : Plan α}
  {data : Grid rows cols α}

/-- The outcome of a run, once it is known what is found. -/
theorem run_snd {s : Sighting rows cols α} (h : Sighting.of plan data = .ok s) :
    (run minimiser plan data).2 = (s.fitted minimiser plan data).map (s.conclude plan) := by
  unfold run Sighting.fitted
  rw [h]
  simp only
  split
  · rfl
  · split
    · rfl
    · rw [← Sighting.attempts_mapM]
      cases (s.attempts minimiser plan data).mapM id <;> rfl

theorem run_eq_ok_iff {r : Survey rows cols α} : (run minimiser plan data).2 = .ok r ↔
    ∃ s islands, Sighting.of plan data = .ok s ∧ s.fitted minimiser plan data = .ok islands ∧
      r = s.conclude plan islands := by
  obtain ⟨s, hs⟩ := Sighting.exists_of plan data
  rw [run_snd hs]
  constructor
  · intro h
    cases hf : s.fitted minimiser plan data with
    | error e => rw [hf] at h; cases h
    | ok islands =>
      rw [hf] at h
      cases h
      exact ⟨s, islands, hs, hf, rfl⟩
  · rintro ⟨s', islands, hs', hf, rfl⟩
    rw [hs] at hs'
    cases hs'
    rw [hf]
    rfl

/-- A run without fits always comes to an end. -/
theorem exists_run (h : plan.fitting = false) (minimiser : Minimiser α)
    (data : Grid rows cols α) : ∃ r, (run minimiser plan data).2 = .ok r := by
  obtain ⟨s, hs⟩ := Sighting.exists_of plan data
  exact ⟨s.conclude plan s.kept,
    run_eq_ok_iff.2 ⟨s, s.kept, hs, Sighting.fitted_eq_ok_iff.2 (.inl ⟨h, rfl⟩), rfl⟩⟩

end Survey
end SkySources
