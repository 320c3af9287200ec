import Mathlib
import SkySources.Background

/-!
# Rounds of clipping

Rounds of clipping cut a list again and again, so what they keep is an iterate of one
function (`cut`). A cut is made if it goes on (`GoesOn`): it removes a value, and what it
leaves makes an estimate (`Sound`). How many cuts are made on a budget follows from the
list alone (`Makes`): all that go on, as long as the budget lasts. All of this holds on any
number line.

What is proved:
  1. `exists_makes`: the rounds keep the iterate after the cuts that are made, and end in
     the way that the list and the budget say (`endingAt`);
  2. `Makes.eq`, `Makes.le_of_le`: the numbers of cuts on two budgets;
  3. `exists_reportAfter`, `report_of_not_sound`: the report on every budget, if the values
     make an estimate and if they do not;
  4. `named?_of_method`: a known method has an estimate, unless it looks at a negative number of
     bins.
-/

namespace SkySources.Background
variable {α : Type} [Scalar α] (c : Clipping α)

/-- The clipping that is made unless another is asked for. -/
def Clipping.standard : Clipping α :=
  { numSigma := 3.0, rounds := 5, method := .exact, bins := 1000, minCount := 2 }

theorem one_le_minCount_standard : 1 ≤ (Clipping.standard : Clipping α).minCount := by
  change (1 : Int) ≤ 2
  decide

/-- The values that a cut leaves: those within the limit from the median of all. -/
def cut (xs : List α) : List α :=
  (Sample.of c xs).within (c.numSigma * (Sample.of c xs).sigma)

/-- The values make an estimate: there are enough, and they are not all alike. -/
structure Sound (xs : List α) : Prop where
  enough : (Sample.of c xs).isSmall c = false
  uneven : (Sample.of c xs).isFlat = false

/-- The cut of the values is made: it removes one, and what it leaves makes an estimate. -/
structure GoesOn (xs : List α) : Prop where
  shorter : (cut c xs).length < xs.length
  sound : Sound c (cut c xs)

/-- So many cuts are made on a budget: each of them goes on, and there is no further one
unless the budget is spent. -/
structure Makes (budget n : Nat) (xs : List α) : Prop where
  le : n ≤ budget
  goesOn : ∀ i < n, GoesOn c ((cut c)^[i] xs)
  stops : n < budget → ¬GoesOn c ((cut c)^[n] xs)

/-- How the rounds end at some values, with a rest of the budget. -/
def endingAt (rest : Nat) (xs : List α) : Ending :=
  if rest = 0 then .exhausted
  else if (cut c xs).length = xs.length then .settled
  else .collapsed (cut c xs).length

variable {c} {xs : List α}

/-! ## One cut -/

theorem cut_sublist (xs : List α) : (cut c xs).Sublist xs := List.filter_sublist

theorem Sound.ne_nil (hmin : 1 ≤ c.minCount) (h : Sound c xs) : xs ≠ [] := by
  rintro rfl
  have hle : ¬(0 : Int) < c.minCount := of_decide_eq_false h.enough
  omega

theorem clip_of_goesOn (h : GoesOn c xs) (budget : Nat) :
    clip c (budget + 1) (Sample.of c xs) =
      { clip c budget (Sample.of c (cut c xs)) with
        cuts := (clip c budget (Sample.of c (cut c xs))).cuts + 1 } := by
  change (if (cut c xs).length = xs.length then _
    else if (Sample.of c (cut c xs)).isSmall c || (Sample.of c (cut c xs)).isFlat then _ else _) = _
  rw [if_neg h.shorter.ne, h.sound.enough, h.sound.uneven]
  rfl

theorem clip_of_not_goesOn (h : ¬GoesOn c xs) (budget : Nat) :
    clip c (budget + 1) (Sample.of c xs) = ⟨Sample.of c xs, 0, endingAt c (budget + 1) xs⟩ := by
  change (if (cut c xs).length = xs.length then _
    else if (Sample.of c (cut c xs)).isSmall c || (Sample.of c (cut c xs)).isFlat then _ else _) = _
  rw [endingAt, if_neg (Nat.succ_ne_zero budget)]
  split
  · rfl
  · next hcut =>
    have hshorter := lt_of_le_of_ne (cut_sublist xs).length_le hcut
    rw [if_pos]
    · rfl
    · by_contra hsound
      simp only [Bool.or_eq_true, not_or, Bool.not_eq_true] at hsound
      exact h ⟨hshorter, hsound.1, hsound.2⟩

/-! ## The cuts that are made -/

theorem Makes.cons {budget n : Nat} (h : GoesOn c xs) (hn : Makes c budget n (cut c xs)) :
    Makes c (budget + 1) (n + 1) xs where
  le := Nat.succ_le_succ hn.le
  goesOn i hi := by
    cases i with
    | zero => exact h
    | succ i => exact hn.goesOn i (Nat.lt_of_succ_lt_succ hi)
  stops hlt := hn.stops (Nat.lt_of_succ_lt_succ hlt)

/-- The rounds keep what is left after the cuts that are made. -/
theorem exists_makes (c : Clipping α) (budget : Nat) (xs : List α) :
    ∃ n, Makes c budget n xs ∧ clip c budget (Sample.of c xs) =
      ⟨Sample.of c ((cut c)^[n] xs), n, endingAt c (budget - n) ((cut c)^[n] xs)⟩ := by
  induction budget generalizing xs with
  | zero =>
    exact ⟨0, ⟨le_rfl, fun _ hi => absurd hi (Nat.not_lt_zero _), fun hlt => absurd hlt (lt_irrefl 0)⟩,
      rfl⟩
  | succ budget ih =>
    by_cases h : GoesOn c xs
    · obtain ⟨n, hn, hclip⟩ := ih (cut c xs)
      refine ⟨n + 1, hn.cons h, ?_⟩
      rw [clip_of_goesOn h, hclip, Function.iterate_succ_apply, Nat.add_sub_add_right]
    · exact ⟨0, ⟨Nat.zero_le _, fun _ hi => absurd hi (Nat.not_lt_zero _), fun _ => h⟩,
        clip_of_not_goesOn h budget⟩

section Makes
variable {j k m n : Nat} (hm : Makes c j m xs) (hn : Makes c k n xs)
include hm

/-- Cuts that come to a stop are as many on every budget that allows them. -/
theorem Makes.eq (hstop : m < j) (hle : m ≤ k) (hn : Makes c k n xs) : n = m := by
  rcases lt_trichotomy n m with hlt | heq | hgt
  · exact absurd (hm.goesOn n hlt) (hn.stops (hlt.trans_le hle))
  · exact heq
  · exact absurd (hn.goesOn m hgt) (hm.stops hstop)

include hn in
/-- A larger budget allows no fewer cuts. -/
theorem Makes.le_of_le (hjk : j ≤ k) : m ≤ n := by
  by_contra hlt
  have hlt := not_le.1 hlt
  exact hn.stops (hlt.trans_le (hm.le.trans hjk)) (hm.goesOn n hlt)

/-- Every cut removes a value. -/
theorem Makes.length_le : m + ((cut c)^[m] xs).length ≤ xs.length := by
  have hcuts (i : Nat) (hi : i ≤ m) : i + ((cut c)^[i] xs).length ≤ xs.length := by
    induction i with
    | zero => exact (Nat.zero_add _).le
    | succ i ih =>
      have hshorter := (hm.goesOn i hi).shorter
      have hbefore := ih (Nat.le_of_succ_le hi)
      rw [Function.iterate_succ_apply']
      omega
  exact hcuts m le_rfl

/-- All lists on the way make an estimate. -/
theorem Makes.sound (h : Sound c xs) {i : Nat} (hi : i ≤ m) : Sound c ((cut c)^[i] xs) := by
  cases i with
  | zero => exact h
  | succ i =>
    rw [Function.iterate_succ_apply']
    exact (hm.goesOn i hi).sound

end Makes

/-- There is one number of cuts on a budget. -/
theorem Makes.unique {budget m n : Nat} (hm : Makes c budget m xs) (hn : Makes c budget n xs) :
    m = n :=
  le_antisymm (hm.le_of_le hn le_rfl) (hn.le_of_le hm le_rfl)

/-! ## Reports -/

theorem clip_withRounds (k budget : Nat) (s : Sample α) :
    clip { c with rounds := k } budget s = clip c budget s := by
  induction budget generalizing s with
  | zero => rfl
  | succ budget ih =>
    simp only [clip, ih]
    rfl

omit [Scalar α] in
/-- A report says of the rounds how many cuts were made, and whether one was given up. -/
theorem background_ofClipped (r : Clipped α) : (Report.ofClipped r).background =
    ofSample r.sample (Report.ofClipped r).collapse.isNone
      (r.cuts + if (Report.ofClipped r).collapse.isNone then 0 else 1) := by
  cases r with
  | mk sample cuts ending => cases ending <;> rfl

variable {data : List α}

theorem report_of_nil (h : finite data = []) :
    report c data = ⟨⟨0.0, Scalar.missing, 0.0, false, 0, 0⟩, [], none⟩ := by
  rw [report, h]
  rfl

section NotNil
variable (hne : finite data ≠ [])
include hne

theorem report_of_small (h : (Sample.of c (finite data)).isSmall c = true) :
    report c data = .unclipped (Sample.of c (finite data)) Scalar.missing := by
  simp only [report, List.isEmpty_iff, hne, if_false, h, if_true]

theorem report_of_flat (hsmall : (Sample.of c (finite data)).isSmall c = false)
    (h : (Sample.of c (finite data)).isFlat = true) :
    report c data = .unclipped (Sample.of c (finite data)) (Sample.of c (finite data)).sigma := by
  simp only [report, List.isEmpty_iff, hne, if_false, hsmall, Bool.false_eq_true, h, if_true]

/-- Values that make an estimate are clipped. -/
theorem report_of_sound (h : Sound c (finite data)) :
    report c data = .ofClipped (clip c c.rounds (Sample.of c (finite data))) := by
  simp only [report, List.isEmpty_iff, hne, if_false, h.enough, h.uneven, Bool.false_eq_true]

end NotNil

/-- Values that make no estimate are reported as they are, on every budget. -/
theorem report_of_not_sound (h : ¬Sound c (finite data)) :
    ∃ r, (∀ k, report { c with rounds := k } data = r) ∧ r.kept = finite data ∧
      r.background.count = (finite data).length ∧ r.background.rounds = 0 ∧
      r.background.reliable = false ∧ r.collapse = none := by
  by_cases hne : finite data = []
  · exact ⟨_, fun _ => report_of_nil hne, hne.symm, by rw [hne]; rfl, rfl, rfl, rfl⟩
  · cases hsmall : (Sample.of c (finite data)).isSmall c with
    | true =>
      exact ⟨.unclipped (Sample.of c (finite data)) Scalar.missing,
        fun k => report_of_small (c := { c with rounds := k }) hne hsmall, rfl, rfl, rfl, rfl, rfl⟩
    | false =>
      cases hflat : (Sample.of c (finite data)).isFlat with
      | true =>
        exact ⟨.unclipped (Sample.of c (finite data)) (Sample.of c (finite data)).sigma,
          fun k => report_of_flat (c := { c with rounds := k }) hne hsmall hflat, rfl, rfl, rfl, rfl,
          rfl⟩
      | false => exact absurd ⟨hsmall, hflat⟩ h

/-! ## The report after some cuts -/

/-- The report after so many cuts, with a rest of the budget. -/
def reportAfter (c : Clipping α) (data : List α) (n rest : Nat) : Report α :=
  .ofClipped ⟨Sample.of c ((cut c)^[n] (finite data)), n,
    endingAt c rest ((cut c)^[n] (finite data))⟩

section After
variable {n rest : Nat}

/-- It does not matter how much of the budget is left. -/
theorem reportAfter_eq {rest' : Nat} (h : 0 < rest) (h' : 0 < rest') :
    reportAfter c data n rest = reportAfter c data n rest' := by
  simp only [reportAfter, endingAt, h.ne', h'.ne', if_false]

theorem rounds_reportAfter (c : Clipping α) (data : List α) (n rest : Nat) :
    (reportAfter c data n rest).background.rounds =
      n + if (reportAfter c data n rest).collapse.isNone then 0 else 1 := by
  rw [reportAfter, background_ofClipped]
  rfl

theorem reliable_reportAfter (c : Clipping α) (data : List α) (n rest : Nat) :
    (reportAfter c data n rest).background.reliable =
      (reportAfter c data n rest).collapse.isNone := by
  rw [reportAfter, background_ofClipped]
  rfl

theorem count_reportAfter (c : Clipping α) (data : List α) (n rest : Nat) :
    (reportAfter c data n rest).background.count = ((cut c)^[n] (finite data)).length := by
  rw [reportAfter, background_ofClipped]
  rfl

theorem le_rounds_reportAfter : n ≤ (reportAfter c data n rest).background.rounds := by
  rw [rounds_reportAfter]
  exact Nat.le_add_right n _

/-- A cut that is given up is within the budget, and would remove a value. -/
theorem shorter_of_collapse (h : (reportAfter c data n rest).collapse.isSome = true) :
    0 < rest ∧ (reportAfter c data n rest).background.rounds = n + 1 ∧
      ((cut c)^[n + 1] (finite data)).length < ((cut c)^[n] (finite data)).length := by
  have hrounds := rounds_reportAfter c data n rest
  rw [← Option.not_isSome, h] at hrounds
  rw [Function.iterate_succ_apply']
  simp only [reportAfter, endingAt] at h
  split at h
  · cases h
  · next hrest =>
    split at h
    · cases h
    · next hcut =>
      exact ⟨Nat.pos_of_ne_zero hrest, hrounds,
        lt_of_le_of_ne (cut_sublist _).length_le hcut⟩

/-- With a rest of the budget and a reliable estimate, no value is too far from the median. -/
theorem near_of_reliable (hrest : 0 < rest)
    (h : (reportAfter c data n rest).background.reliable = true) :
    ∀ x ∈ (reportAfter c data n rest).kept,
      Scalar.abs (x - (reportAfter c data n rest).background.median) ≤
        c.numSigma * (reportAfter c data n rest).background.sigma := by
  rw [reportAfter, background_ofClipped] at *
  simp only [ofSample, endingAt, hrest.ne', if_false] at h ⊢
  split at h
  · next hcut =>
    intro x hx
    exact of_decide_eq_true (List.length_filter_eq_length_iff.1 hcut x hx)
  · cases h

end After

/-- The report on a budget, after the cuts that are made. -/
theorem exists_reportAfter (hne : finite data ≠ []) (h : Sound c (finite data)) (k : Nat) :
    ∃ n, Makes c k n (finite data) ∧
      report { c with rounds := k } data = reportAfter c data n (k - n) := by
  obtain ⟨n, hn, hclip⟩ := exists_makes c k (finite data)
  refine ⟨n, hn, ?_⟩
  have hreport := report_of_sound (c := { c with rounds := k }) hne ⟨h.enough, h.uneven⟩
  rw [hreport, clip_withRounds]
  exact congrArg Report.ofClipped hclip

theorem kept_ne_nil (hmin : 1 ≤ c.minCount) (hne : finite data ≠ []) : (report c data).kept ≠ [] := by
  by_cases h : Sound c (finite data)
  · obtain ⟨n, hn, hR⟩ := exists_reportAfter hne h c.rounds
    have hreport : report c data = reportAfter c data n (c.rounds - n) := hR
    rw [hreport]
    exact (hn.sound h le_rfl).ne_nil hmin
  · obtain ⟨r, hr, hkept, -⟩ := report_of_not_sound h
    have hreport : report c data = r := hr c.rounds
    rwa [hreport, hkept]

/-- One cut more: if the first cut of some values leaves the values of other data, one round
more leads to the estimate of the other data. -/
theorem background_of_goesOn (hmin : 1 ≤ c.minCount) {before : List α}
    (h : Sound c (finite before)) (hgo : GoesOn c (finite before))
    (hcut : cut c (finite before) = finite data) (k : Nat) :
    (report { c with rounds := k + 1 } before).background =
      { (report { c with rounds := k } data).background with
        rounds := (report { c with rounds := k } data).background.rounds + 1 } := by
  have hnext : Sound c (finite data) := hcut ▸ hgo.sound
  have hbefore := report_of_sound (c := { c with rounds := k + 1 }) (h.ne_nil hmin)
    ⟨h.enough, h.uneven⟩
  have hafter := report_of_sound (c := { c with rounds := k }) (hnext.ne_nil hmin)
    ⟨hnext.enough, hnext.uneven⟩
  have hclip : clip c (k + 1) (Sample.of c (finite before)) =
      { clip c k (Sample.of c (finite data)) with
        cuts := (clip c k (Sample.of c (finite data))).cuts + 1 } := by
    rw [clip_of_goesOn hgo, hcut]
  rw [hbefore, hafter, clip_withRounds k, clip_withRounds (k + 1)]
  change ofClipped (clip c (k + 1) (Sample.of c (finite before))) =
    { ofClipped (clip c k (Sample.of c (finite data))) with
      rounds := (ofClipped (clip c k (Sample.of c (finite data)))).rounds + 1 }
  rw [hclip]
  cases clip c k (Sample.of c (finite data)) with
  | mk sample cuts ending => cases ending <;> rfl

/-! ## Methods and bins that are given -/

/-- Only the method and the bins make a fault. -/
theorem fault_eq (c : Clipping α) (hmin : 1 ≤ c.minCount) (bins : Int) (data : List α) :
    fault c bins data = if (finite data).isEmpty || c.method ≠ .binapprox then none
      else Median.binFault bins (finite data) := by
  unfold fault
  split
  · rfl
  · next h =>
    have hne : finite data ≠ [] := by
      rintro hnil
      rw [hnil] at h
      exact h rfl
    have hkept : (report c data).kept.isEmpty = false := by simpa using kept_ne_nil hmin hne
    rw [hkept]
    cases Median.binFault bins (finite data) <;> rfl

theorem fault_eq_none (c : Clipping α) (hmin : 1 ≤ c.minCount) {bins : Int}
    (hbins : c.method = .binapprox → 0 ≤ bins) (data : List α) : fault c bins data = none := by
  rw [fault_eq c hmin]
  split
  · rfl
  · next h =>
    simp only [Bool.or_eq_true, decide_eq_true_eq, not_or, Bool.not_eq_true, not_not] at h
    rw [Median.binFault, h.1, if_neg Bool.false_ne_true,
      if_neg fun hneg => not_lt.2 (hbins h.2) hneg.1]

/-- A method by its name has an estimate, if it does not look at a negative number of bins. -/
theorem named?_of_method (hmin : 1 ≤ c.minCount) {method : String} {m : Median.Method}
    (hm : Median.Method.ofName? method = some m) {bins : Int} (hbins : m = .binapprox → 0 ≤ bins)
    (data : List α) :
    named? c method bins data = .ok (report { c with method := m, bins := bins.toNat } data) := by
  have hfault : fault { c with method := m, bins := bins.toNat } bins data = none :=
    fault_eq_none { c with method := m, bins := bins.toNat } hmin hbins data
  simp only [named?, hm, hfault]

theorem named?_name (hmin : 1 ≤ c.minCount) (data : List α) :
    named? c c.method.name c.bins data = .ok (report c data) := by
  have hname : Median.Method.ofName? c.method.name = some c.method := by
    cases c.method <;> decide
  exact named?_of_method hmin hname (fun _ => Int.natCast_nonneg c.bins) data

end SkySources.Background
