import Mathlib
import SkySources.Background

/-!
# Estimates from changed values

Every value of an image is changed in the same way, and it is known what that does to
the estimate of one sample (`Carries`). Then it does the same to the estimate of the
whole image, however many rounds are made: a round keeps the values that it kept before.
The one thing to be seen to is that no sample is taken for flat which was not, or the
other way round, among those that are looked at on the way (`weighed`).

What is proved:
  1. `clip_map`: rounds from a changed sample, by induction on the budget;
  2. `report_map`: the report of the estimate.
-/

namespace SkySources.Background

/-! ## Changed estimates -/

section Map
variable {α : Type} (f g : α → α)

/-- A sample with changed values and a changed deviation. -/
def Sample.map (s : Sample α) : Sample α := ⟨s.values.map f, f s.mean, g s.sigma, f s.median⟩

/-- What rounds lead to, with a changed sample. -/
def Clipped.map (r : Clipped α) : Clipped α := { r with sample := r.sample.map f g }

/-- An estimate with a changed level and a changed deviation. -/
def map (b : Background α) : Background α :=
  { b with mean := f b.mean, sigma := g b.sigma, median := f b.median }

/-- The report of a changed estimate. -/
def Report.map (r : Report α) : Report α := ⟨r.background.map f g, r.kept.map f, r.collapse⟩

theorem count_map (s : Sample α) : (s.map f g).count = s.count := List.length_map _

theorem isSmall_map (c : Clipping α) (s : Sample α) : (s.map f g).isSmall c = s.isSmall c := by
  rw [Sample.isSmall, Sample.isSmall, count_map]

theorem ofSample_map (s : Sample α) (reliable : Bool) (rounds : Nat) :
    ofSample (s.map f g) reliable rounds = (ofSample s reliable rounds).map f g := by
  rw [ofSample, count_map]
  rfl

theorem ofClipped_map (r : Clipped α) :
    Report.ofClipped (r.map f g) = (Report.ofClipped r).map f g := by
  have hbackground : ofClipped (r.map f g) = (ofClipped r).map f g := by
    cases r with
    | mk sample cuts ending => cases ending <;> exact ofSample_map f g sample _ _
  rw [Report.ofClipped, hbackground]
  rfl

theorem unclipped_map (s : Sample α) (sigma : α) :
    Report.unclipped (s.map f g) (g sigma) = (Report.unclipped s sigma).map f g := by
  have hsample : ofSample { s.map f g with sigma := g sigma } false 0 =
      (ofSample { s with sigma := sigma } false 0).map f g :=
    ofSample_map f g { s with sigma := sigma } false 0
  rw [Report.unclipped, hsample]
  rfl

end Map

/-! ## The samples that are looked at -/

variable {α : Type} [Scalar α]

/-- The samples that rounds from a sample on look at: each is what a cut would leave,
unless that is too small, and a flat one is the last. -/
def trail (c : Clipping α) : Nat → Sample α → List (Sample α)
  | 0, _ => []
  | budget + 1, s =>
    let kept := s.within (c.numSigma * s.sigma)
    if kept.length = s.count then []
    else
      let next := Sample.of c kept
      if next.isSmall c then []
      else next :: if next.isFlat then [] else trail c budget next

/-- The samples that are looked at for some data, whether they are flat. -/
def weighed (c : Clipping α) (data : List α) : List (Sample α) :=
  if (finite data).isEmpty then []
  else
    let s := Sample.of c (finite data)
    if s.isSmall c then []
    else s :: if s.isFlat then [] else trail c c.rounds s

/-- Without rounds only the sample of all values is looked at. -/
theorem eq_of_mem_weighed {c : Clipping α} {data : List α} {s : Sample α} (hc : c.rounds = 0)
    (h : s ∈ weighed c data) : s = Sample.of c (finite data) := by
  simp only [weighed, hc, trail] at h
  split at h
  · cases h
  · split at h
    · cases h
    · simpa using h

/-! ## Carrying over a change -/

/-- A change of finite values carries over to the estimate of a sample, and keeps what
lies within the limit of a round. -/
structure Carries (c : Clipping α) (f g : α → α) : Prop where
  isFinite : ∀ x, Scalar.isFinite (f x) = Scalar.isFinite x
  zero : f 0.0 = 0.0
  missing : g Scalar.missing = Scalar.missing
  sample : ∀ xs : List α, (∀ a ∈ xs, Scalar.isFinite a = true) →
    Sample.of c (xs.map f) = (Sample.of c xs).map f g
  near : ∀ x median sigma, Scalar.abs (f x - f median) ≤ c.numSigma * g sigma ↔
    Scalar.abs (x - median) ≤ c.numSigma * sigma

variable {c : Clipping α} {f g : α → α} (h : Carries c f g)
include h

theorem finite_map (data : List α) : finite (data.map f) = (finite data).map f := by
  rw [finite, finite, List.filter_map]
  congr 2
  funext x
  exact h.isFinite x

/-- A round keeps the same values. -/
theorem within_map (s : Sample α) :
    (s.map f g).within (c.numSigma * g s.sigma) = (s.within (c.numSigma * s.sigma)).map f := by
  simp only [Sample.within, Sample.map, List.filter_map]
  congr 2
  funext x
  exact decide_eq_decide.2 (h.near x s.median s.sigma)

theorem clip_map (budget : Nat) (s : Sample α) (hs : ∀ a ∈ s.values, Scalar.isFinite a = true)
    (hflat : ∀ t ∈ trail c budget s, (t.map f g).isFlat = t.isFlat) :
    clip c budget (s.map f g) = (clip c budget s).map f g := by
  induction budget generalizing s with
  | zero => rfl
  | succ budget ih =>
    have hkept : ∀ a ∈ s.within (c.numSigma * s.sigma), Scalar.isFinite a = true :=
      fun a ha => hs a (List.mem_of_mem_filter ha)
    have hsigma : (s.map f g).sigma = g s.sigma := rfl
    simp only [clip, hsigma, within_map h, count_map, List.length_map, h.sample _ hkept,
      isSmall_map]
    simp only [trail] at hflat
    split
    · rfl
    · next hcut =>
      rw [if_neg hcut] at hflat
      cases hsmall : (Sample.of c (s.within (c.numSigma * s.sigma))).isSmall c with
      | true => rfl
      | false =>
        -- the sample that the cut leaves is looked at, and so are those after it
        simp only [hsmall, Bool.false_eq_true, if_false] at hflat
        have hnext := hflat _ List.mem_cons_self
        rw [hnext]
        cases hlast : (Sample.of c (s.within (c.numSigma * s.sigma))).isFlat with
        | true => rfl
        | false =>
          rw [hlast] at hflat
          simp only [Bool.or_self, Bool.false_eq_true, if_false]
          rw [ih _ hkept fun t ht => hflat t (List.mem_cons_of_mem _ ht)]
          rfl

/-- The report of the estimate from changed values. -/
theorem report_map (data : List α) (hflat : ∀ s ∈ weighed c data, (s.map f g).isFlat = s.isFlat) :
    report c (data.map f) = (report c data).map f g := by
  have hfinite : ∀ a ∈ finite data, Scalar.isFinite a = true := fun a ha => List.of_mem_filter ha
  simp only [report, finite_map h, List.isEmpty_map, h.sample _ hfinite, isSmall_map]
  rw [weighed] at hflat
  split
  · rw [Report.map, map, h.zero, h.missing]
    rfl
  · next hne =>
    rw [if_neg hne] at hflat
    cases hsmall : (Sample.of c (finite data)).isSmall c with
    | true =>
      have := unclipped_map f g (Sample.of c (finite data)) Scalar.missing
      rwa [h.missing] at this
    | false =>
      simp only [hsmall, Bool.false_eq_true, if_false] at hflat ⊢
      rw [hflat _ List.mem_cons_self]
      cases hlast : (Sample.of c (finite data)).isFlat with
      | true => exact unclipped_map f g _ _
      | false =>
        simp only [hlast, Bool.false_eq_true, if_false] at hflat ⊢
        rw [clip_map h _ _ hfinite fun t ht => hflat t (List.mem_cons_of_mem _ ht)]
        exact ofClipped_map f g _

end SkySources.Background
