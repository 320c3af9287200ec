import SkySources.Proofs.Frame.Island
import SkySources.Proofs.Island.Barycentre
import SkySources.Proofs.Survey.Accepted
import SkySources.Proofs.Threshold

/-!
# Surveys of images with a frame

Pixels that are not finite carry no information: it makes no difference which value
they have, nor whether the image ends there or goes on with more of them. So the survey
of an image with a frame of such pixels finds the same islands, each so many rows and
columns further on.

What is proved, stage by stage:
  1. `finite_toList`: the values that are estimated from are the same, in the same order;
  2. `marks_framed`: so are the marks, and nothing is marked in the frame;
  3. `Sighting.of_framed`: so the same islands are found and kept;
  4. `survey_framed`: the whole survey, with barycentres in exact numbers.
-/

namespace SkySources

variable {α : Type} [Scalar α] {f : Frame} {rows cols : Nat} {data : Grid rows cols α}
  {data' : FramedGrid f rows cols α}

/-- An image with other pixels that are not finite, and a frame of such pixels. -/
structure Frame.Surrounds (f : Frame) (data : Grid rows cols α) (data' : FramedGrid f rows cols α) :
    Prop where
  inside : ∀ p, data'.get (p.framed f) = data.get p ∨
    Scalar.isFinite (data.get p) = false ∧ Scalar.isFinite (data'.get (p.framed f)) = false
  outside : ∀ r, (∀ p : Pixel rows cols, p.framed f ≠ r) → Scalar.isFinite (data'.get r) = false

namespace Frame.Surrounds
variable (h : f.Surrounds data data')
include h

theorem get_eq {p : Pixel rows cols} (hp : Scalar.isFinite (data.get p) = true) :
    data'.get (p.framed f) = data.get p := by
  rcases h.inside p with heq | ⟨hno, _⟩
  · exact heq
  · rw [hp] at hno
    cases hno

theorem isFinite_eq (p : Pixel rows cols) :
    Scalar.isFinite (data'.get (p.framed f)) = Scalar.isFinite (data.get p) := by
  rcases h.inside p with heq | ⟨hno, hno'⟩
  · rw [heq]
  · rw [hno, hno']

/-- The same values are estimated from, in the same order. -/
theorem finite_toList : Background.finite data'.toList = Background.finite data.toList := by
  have hraster : (Pixel.raster _ _).filter (fun r => Scalar.isFinite (data'.get r)) =
      ((Pixel.raster rows cols).filter fun p => Scalar.isFinite (data.get p)).map
        (Pixel.framed f) :=
    Pixel.filter_raster_framed h.isFinite_eq h.outside
  calc Background.finite data'.toList
      = ((Pixel.raster _ _).filter fun r => Scalar.isFinite (data'.get r)).map data'.get :=
        List.filter_map
    _ = (((Pixel.raster rows cols).filter fun p => Scalar.isFinite (data.get p)).map
          (Pixel.framed f)).map data'.get := by rw [hraster]
    _ = ((Pixel.raster rows cols).filter fun p => Scalar.isFinite (data.get p)).map data.get := by
        rw [List.map_map]
        apply List.map_congr_left
        intro p hp
        rw [List.mem_filter] at hp
        exact h.get_eq hp.2
    _ = Background.finite data.toList := List.filter_map.symm

theorem levels_eq (plan : Plan α) : Levels.of plan data'.toList = Levels.of plan data.toList := by
  have hreport : Background.report plan.clipping data'.toList =
      Background.report plan.clipping data.toList := by
    unfold Background.report
    rw [h.finite_toList]
  rw [Levels.of, Levels.of, hreport]

end Frame.Surrounds

/-! ## Marks -/

/-- No difference is finite whose first term is not. -/
def SubtractsFinitely (α : Type) [Scalar α] : Prop :=
  ∀ x y : α, Scalar.isFinite (x - y) = true → Scalar.isFinite x = true

variable (hsub : SubtractsFinitely α)
include hsub

theorem Threshold.mark_eq_blank (t : Threshold α) {value : α}
    (h : Scalar.isFinite value = false) : t.mark value = IslandMap.blank := by
  have hdev : Scalar.isFinite (value - t.mean) = false := by
    by_contra hfin
    rw [hsub _ _ (Bool.not_eq_false _ ▸ hfin)] at h
    cases h
  simp only [mark, hdev, Bool.false_and, Bool.and_false, Bool.false_eq_true, if_false,
    Bool.or_false]
  rfl

/-- Nothing is marked in the frame, and the same pixels are marked inside. -/
theorem Frame.Surrounds.marks_framed (h : f.Surrounds data data') (t : Threshold α) :
    t.marks data' = (t.marks data).framed f IslandMap.blank := by
  rw [Grid.eq_framed_iff]
  constructor
  · intro p
    rw [Threshold.marks, Threshold.marks, Grid.get_map, Grid.get_map]
    rcases h.inside p with heq | ⟨hno, hno'⟩
    · rw [heq]
    · rw [t.mark_eq_blank hsub hno, t.mark_eq_blank hsub hno']
  · intro r hr
    rw [Threshold.marks, Grid.get_map, t.mark_eq_blank hsub (h.outside r hr)]

/-! ## What is found -/

namespace Sighting
variable {plan : Plan α} {s : Sighting rows cols α} {view : Island α → Island α}

omit hsub in
/-- The label map that is shown loses the same labels. -/
theorem keptLabels_framed
    {s' : Sighting (f.top + rows + f.bottom) (f.left + cols + f.right) α}
    (hs : of plan data = .ok s) (hs' : of plan data' = .ok s')
    (hlabels : s'.found.labels = s.found.labels.framed f 0)
    (hkept : s'.kept.map Island.label = s.kept.map Island.label) :
    s'.keptLabels = s.keptLabels.framed f 0 := by
  rw [Grid.eq_framed_iff]
  constructor
  · intro p
    rw [keptLabels_get hs', keptLabels_get hs, hlabels, Grid.get_framed]
    simp only [← List.mem_map (f := Island.label), hkept]
  · intro r hr
    rw [keptLabels_get hs', hlabels, Grid.get_framed_outside hr, ite_self]

/-- What is found in an image with a frame. -/
theorem of_framed (hview : Island.Moves f view) (h : f.Surrounds data data')
    (hs : of plan data = .ok s) : ∃ s', of plan data' = .ok s' ∧ s'.levels = s.levels ∧
      s'.marks = s.marks.framed f IslandMap.blank ∧ s'.keptLabels = s.keptLabels.framed f 0 ∧
      s'.kept.map view = s.kept.map fun i => view (i.moved f) := by
  obtain ⟨s', hs'⟩ := exists_of plan data'
  obtain ⟨hlevels, hmarks, hfound, hkept⟩ := of_eq_ok_iff.1 hs
  obtain ⟨hlevels', hmarks', hfound', hkept'⟩ := of_eq_ok_iff.1 hs'
  rw [h.levels_eq, ← hlevels] at hlevels'
  rw [hlevels', h.marks_framed hsub, ← hmarks] at hmarks'
  rw [hmarks', hlevels'] at hfound'
  -- what is marked is finite, so it has kept its value
  have hdata (p : Pixel rows cols) (hp : (s.marks.get p).sign ≠ .background) :
      data'.get (p.framed f) = data.get p := by
    rw [hmarks, Threshold.marks, Grid.get_map] at hp
    exact h.get_eq (hsub _ _ (Threshold.isFinite_of_sign hp))
  obtain ⟨m', hm', hlabels, hislands⟩ := IslandMap.ofMarks_framed hview hdata hfound
  rw [hm'] at hfound'
  cases hfound'
  have hall := hview.map_keepLarge plan.minArea hislands
  rw [← hkept, ← hkept'] at hall
  -- labels are not lost in what is looked at, and the label map asks for nothing else
  have hnumbers := congrArg (List.map Island.label) hall
  rw [List.map_map, List.map_map] at hnumbers
  simp only [Function.comp_def, hview.label_eq] at hnumbers
  exact ⟨s', hs', hlevels', hmarks', keptLabels_framed hs hs' hlabels hnumbers, hall⟩

end Sighting

/-! ## The survey -/

namespace Survey

/-- The survey of an image with a frame. -/
def moved (f : Frame) (r : Survey rows cols α) :
    Survey (f.top + rows + f.bottom) (f.left + cols + f.right) α :=
  { background := r.background
    islands := r.islands.map (Island.moved f)
    labels := r.labels.map (Grid.framed f 0)
    marks := r.marks.map (Grid.framed f IslandMap.blank) }

/-- The survey with what is looked at of its islands. -/
def viewed (view : Island α → Island α) (r : Survey rows cols α) : Survey rows cols α :=
  { r with islands := r.islands.map view }

omit hsub [Scalar α] in
@[simp] theorem viewed_id (r : Survey rows cols α) : r.viewed id = r := by
  rw [viewed, List.map_id]

variable {plan : Plan α} {view : Island α → Island α}

/-- What a survey without fits shows of an image with a frame. -/
theorem conclude_framed (hview : Island.Moves f view) (h : f.Surrounds data data')
    {s : Sighting rows cols α} (hs : Sighting.of plan data = .ok s) :
    ∃ s', Sighting.of plan data' = .ok s' ∧
      (s'.conclude plan s'.kept).viewed view = ((s.conclude plan s.kept).moved f).viewed view := by
  obtain ⟨s', hs', hlevels, hmarks, hlabels, hkept⟩ := Sighting.of_framed hsub hview h hs
  refine ⟨s', hs', ?_⟩
  simp only [viewed, moved, Sighting.conclude, hlevels, hmarks, hlabels, hkept, List.map_map]
  cases plan.shows <;> rfl

end Survey

/-! ## Doubles and exact numbers -/

omit hsub

theorem subtractsFinitely_double : SubtractsFinitely Float :=
  fun _ _ => Double.isFinite_of_isFinite_sub

theorem subtractsFinitely_exact : SubtractsFinitely Exact :=
  fun _ _ => Exact.isFinite_of_isFinite_sub

/-- A number is only too large if it is needed, which the finite values decide. -/
theorem Frame.Surrounds.eventsUntilTooLarge?_eq {data : Grid rows cols Float}
    {data' : FramedGrid f rows cols Float} (h : f.Surrounds data data') (s : SearchSettings)
    (plan : Plan Float) :
    s.eventsUntilTooLarge? plan data'.toList = s.eventsUntilTooLarge? plan data.toList := by
  have hclips : Background.clips plan.clipping data'.toList =
      Background.clips plan.clipping data.toList := by
    unfold Background.clips
    rw [h.finite_toList]
  unfold SearchSettings.eventsUntilTooLarge?
  rw [hclips, h.levels_eq, h.finite_toList]

/-- Pixels that are not finite carry no information, inside an image or around it: with
others in their place and a frame of them, a survey without fits has the same background,
the same labels at their new places and none in the frame, and the same islands, so many
rows and columns further on. In exact numbers that goes for barycentres as well. A survey
without fits comes to an end, unless a number is too large for a double. -/
theorem survey_framed (f : Frame) (rows cols : Nat) :
    (∀ (minimiser : Minimiser Float) (s : SearchSettings) (c : Connectivity)
      (data : Grid rows cols Float) (data' : FramedGrid f rows cols Float),
      s.Accepted c → s.fitting = false → f.Surrounds data data' →
      (s.surveyBy minimiser data').2.map (Survey.viewed Island.withoutCentre) =
        (s.surveyBy minimiser data).2.map (fun r => (r.moved f).viewed Island.withoutCentre) ∧
      (s.eventsUntilTooLarge? (s.planWith c) data.toList = none →
        ∃ r, (s.surveyBy minimiser data).2 = .ok r)) ∧
    (∀ (minimiser : Minimiser Exact) (plan : Plan Exact) (data : Grid rows cols Exact)
      (data' : FramedGrid f rows cols Exact), plan.fitting = false → f.Surrounds data data' →
      ∃ r, (Survey.run minimiser plan data).2 = .ok r ∧
        (Survey.run minimiser plan data').2 = .ok (r.moved f)) := by
  constructor
  · intro minimiser s c data data' hc hfit h
    obtain ⟨found, hs⟩ := Sighting.exists_of (s.planWith c) data
    obtain ⟨found', hs', hsame⟩ :=
      Survey.conclude_framed subtractsFinitely_double Island.moves_withoutCentre h hs
    rw [hc.surveyBy_unfitted hfit hs, hc.surveyBy_unfitted hfit hs', h.eventsUntilTooLarge?_eq]
    constructor
    · split
      · exact congrArg Except.ok hsame
      · rfl
    · intro he
      exact ⟨_, if_pos he⟩
  · intro minimiser plan data data' hfit h
    obtain ⟨s, hs⟩ := Sighting.exists_of plan data
    obtain ⟨s', hs', hsame⟩ :=
      Survey.conclude_framed subtractsFinitely_exact Island.moves_exact h hs
    rw [Survey.viewed_id, Survey.viewed_id] at hsame
    have hkept : s.fitted minimiser plan data = .ok s.kept :=
      Sighting.fitted_eq_ok_iff.2 (.inl ⟨hfit, rfl⟩)
    have hkept' : s'.fitted minimiser plan data' = .ok s'.kept :=
      Sighting.fitted_eq_ok_iff.2 (.inl ⟨hfit, rfl⟩)
    refine ⟨s.conclude plan s.kept, ?_, ?_⟩
    · rw [Survey.run_snd hs, hkept]
      rfl
    · rw [Survey.run_snd hs', hkept', ← hsame]
      rfl

/-- Settings that show the labels, over a deviation that is given. -/
def unfittedSettings : SearchSettings :=
  { rms := some (.whole 1), detection := .whole 4, labelMap := true }

/-- A row above an image, and two columns on its right. -/
def border : Frame := ⟨1, 0, 0, 2⟩

/-- One pixel on each side of the background, and a missing one between them. -/
def gapped : Grid 1 3 Float := ⟨#v[#v[9.0, Scalar.missing, 0.0]]⟩

/-- The image with an infinite pixel for the missing one, in a corner of such pixels. -/
def cornered : FramedGrid border 1 3 Float :=
  let inf : Float := 1.0 / 0.0
  ⟨#v[#v[inf, -inf, Scalar.missing, inf, inf], #v[9.0, -inf, 0.0, Scalar.missing, inf]]⟩

/-- Both surveys of the image come to an end, and so do those of two pixels in exact numbers, one of
which is detected. -/
theorem survey_framed_cornered :
    (unfittedSettings.Accepted .edges ∧ unfittedSettings.fitting = false ∧
      border.Surrounds gapped cornered ∧
      (unfittedSettings.surveyBy unfittedSettings.minimiser cornered).2.map
          (Survey.viewed Island.withoutCentre) =
        (unfittedSettings.surveyBy unfittedSettings.minimiser gapped).2.map
          (fun r => (r.moved border).viewed Island.withoutCentre) ∧
      ∃ r, (unfittedSettings.surveyBy unfittedSettings.minimiser gapped).2 = .ok r) ∧
    Island.pairPlan.fitting = false ∧
    border.Surrounds Island.pair (Island.pair.framed border .missing) ∧
    ∃ r, (Survey.run Fit.staying Island.pairPlan Island.pair).2 = .ok r ∧ r.islands ≠ [] ∧
      (Survey.run Fit.staying Island.pairPlan (Island.pair.framed border .missing)).2 =
        .ok (r.moved border) := by
  have hc : unfittedSettings.Accepted .edges :=
    ⟨by decide +kernel, by decide, by decide, rfl, by decide, by decide, by decide, by decide⟩
  have h : border.Surrounds gapped cornered := ⟨by decide +kernel, by decide +kernel⟩
  obtain ⟨hsame, hends⟩ := (survey_framed border 1 3).1 unfittedSettings.minimiser unfittedSettings .edges
    gapped cornered hc rfl h
  refine ⟨⟨hc, rfl, h, hsame, hends (by decide +kernel)⟩, ?_⟩
  have hpair : border.Surrounds Island.pair (Island.pair.framed border .missing) := by
    constructor
    · intro p
      exact .inl (Grid.get_framed p)
    · intro r hr
      rw [Grid.get_framed_outside hr]
      rfl
  obtain ⟨r, hr, hr'⟩ := (survey_framed border 1 2).2 Fit.staying Island.pairPlan Island.pair _ rfl
    hpair
  refine ⟨rfl, hpair, r, hr, ?_, hr'⟩
  obtain ⟨s, islands, hs, hfitted, rfl⟩ := Survey.run_eq_ok_iff.1 hr
  change islands ≠ []
  rw [Sighting.eq_kept_of_fitted rfl hfitted]
  exact kept_ne_nil_of_detected hs le_rfl (Island.detected_pairPlan hs)

end SkySources
