import Mathlib
import SkySources.Proofs.Clipping.Kept

/-!
# The budget of rounds

An estimate depends on the budget of rounds only as long as the budget is spent: rounds
that end before do so on every larger budget, and after as many rounds as there are values
nothing is left to cut. It makes no difference whether the rounds settle or collapse, though
a collapse counts one round more than there are cuts.

What is proved, on any number line, for estimates of at least one value:
  1. `saturates_report`: what a budget does to the report (`Saturates`);
  2. `named?_saturates`: the same for a method by its name and any number of bins, where a
     fault does not depend on the budget.
-/

namespace SkySources.Background
variable {α : Type} [Scalar α] {c : Clipping α} {data : List α}

/-- What a budget of rounds does to an estimate, with one report for each budget. -/
structure Saturates (c : Clipping α) (data : List α) (R : Nat → Report α) : Prop where
  /-- No budget is overdrawn. -/
  rounds_le : ∀ k, (R k).background.rounds ≤ k
  /-- Rounds that end before their budget is spent end so on every larger one. -/
  eq_of_rounds_lt : ∀ k, (R k).background.rounds < k → ∀ j, k ≤ j → R j = R k
  /-- If they end with a reliable estimate, no kept value is too far from the median. -/
  near_of_rounds_lt : ∀ k, (R k).background.rounds < k → (R k).background.reliable = true →
    ∀ x ∈ (R k).kept, Scalar.abs (x - (R k).background.median) ≤
      c.numSigma * (R k).background.sigma
  /-- Rounds that end in a collapse end so on every budget that allows as many. -/
  eq_of_collapse : ∀ k, (R k).collapse.isSome = true →
    ∀ j, (R k).background.rounds ≤ j → R j = R k
  /-- The kept values are what some cuts leave, and a cut that was given up counts as a
  round. -/
  kept_eq : ∀ k, ∃ n, (R k).kept = (cut c)^[n] (finite data) ∧
    (R k).background.count = (R k).kept.length ∧
    (R k).background.rounds = n + if (R k).collapse.isNone then 0 else 1
  /-- In every round that counts there is a value to remove. -/
  shorter : ∀ k, ∀ i < (R k).background.rounds,
    ((cut c)^[i + 1] (finite data)).length < ((cut c)^[i] (finite data)).length
  /-- So there are no more rounds than removed values and one. -/
  rounds_add_count_le : ∀ k,
    (R k).background.rounds + (R k).background.count ≤ (finite data).length + 1
  /-- As many rounds as there are values are enough. -/
  eq_of_length_le : ∀ j k, (finite data).length ≤ j → (finite data).length ≤ k → R j = R k

/-! ## Every budget -/

theorem saturates_of_sound (hmin : 1 ≤ c.minCount) (h : Sound c (finite data)) :
    Saturates c data fun k => report { c with rounds := k } data := by
  have hreport := exists_reportAfter (h.ne_nil hmin) h
  -- cuts that have come to a stop are the cuts on every budget that allows them
  have hstopped {k n : Nat} (hn : Makes c k n (finite data)) (hstop : n < k) {j : Nat}
      (hj : n < j) : report { c with rounds := j } data = reportAfter c data n (k - n) := by
    obtain ⟨n', hn', hR⟩ := hreport j
    rw [hR, hn.eq hstop hj.le hn']
    exact reportAfter_eq (Nat.sub_pos_of_lt hj) (Nat.sub_pos_of_lt hstop)
  refine ⟨fun k => ?_, fun k hk j hj => ?_, fun k hk => ?_, fun k hc j hj => ?_, fun k => ?_,
    fun k => ?_, fun k => ?_, fun j k hj hk => ?_⟩
  all_goals
    obtain ⟨n, hn, hR⟩ := hreport k
    simp only [hR] at *
  · cases hc : (reportAfter c data n (k - n)).collapse with
    | none =>
      rw [rounds_reportAfter, hc]
      exact hn.le
    | some collapse =>
      obtain ⟨hrest, hrounds, -⟩ := shorter_of_collapse (by rw [hc]; rfl)
      rw [hrounds]
      omega
  · have hstop : n < k := le_rounds_reportAfter.trans_lt hk
    exact hstopped hn hstop (hstop.trans_le hj)
  · have hstop : n < k := le_rounds_reportAfter.trans_lt hk
    exact near_of_reliable (Nat.sub_pos_of_lt hstop)
  · obtain ⟨hrest, hrounds, -⟩ := shorter_of_collapse hc
    exact hstopped hn (Nat.lt_of_sub_pos hrest) (by omega)
  · exact ⟨n, rfl, count_reportAfter c data n (k - n), rounds_reportAfter c data n (k - n)⟩
  · intro i hi
    rcases lt_or_ge i n with hlt | hge
    · rw [Function.iterate_succ_apply']
      exact (hn.goesOn i hlt).shorter
    · cases hc : (reportAfter c data n (k - n)).collapse with
      | none =>
        rw [rounds_reportAfter, hc] at hi
        exact absurd hi (not_lt.2 hge)
      | some collapse =>
        obtain ⟨-, hrounds, hshorter⟩ := shorter_of_collapse (by rw [hc]; rfl)
        obtain rfl : i = n := by omega
        exact hshorter
  · have hlength := hn.length_le
    rw [count_reportAfter, rounds_reportAfter]
    split <;> omega
  · -- the last value is never cut away
    have hlength := hn.length_le
    have hpos := List.length_pos_iff.2 ((hn.sound h le_rfl).ne_nil hmin)
    exact hstopped hn (by omega) (by omega)

theorem saturates_of_not_sound (h : ¬Sound c (finite data)) :
    Saturates c data fun k => report { c with rounds := k } data := by
  obtain ⟨r, hr, hkept, hcount, hrounds, hreliable, hcollapse⟩ := report_of_not_sound h
  have hR : (fun k => report { c with rounds := k } data) = fun _ => r := funext hr
  rw [hR]
  refine ⟨fun k => ?_, fun _ _ _ _ => rfl, fun _ _ hrel => ?_, fun _ _ _ _ => rfl, fun _ => ?_,
    fun _ i hi => ?_, fun _ => ?_, fun _ _ _ _ => rfl⟩
  · exact hrounds.trans_le (Nat.zero_le k)
  · exact absurd (hrel.symm.trans hreliable) Bool.noConfusion
  · exact ⟨0, hkept, by rw [hcount, hkept], by rw [hrounds, hcollapse]; rfl⟩
  · exact absurd (hi.trans_eq hrounds) (Nat.not_lt_zero i)
  · omega

theorem saturates_report (c : Clipping α) (hmin : 1 ≤ c.minCount) (data : List α) :
    Saturates c data fun k => report { c with rounds := k } data := by
  by_cases h : Sound c (finite data)
  · exact saturates_of_sound hmin h
  · exact saturates_of_not_sound h

/-! ## Methods and bins that are given -/

/-- Unless there is a fault on every budget, for an unknown method or a negative number of
bins, there is an estimate on every budget, and rounds that stop need no more of it. -/
theorem named?_saturates (c : Clipping α) (hmin : 1 ≤ c.minCount) (method : String) (bins : Int)
    (data : List α) :
    ((Median.Method.ofName? method = none ∨ bins < 0) ∧
      ∃ f, ∀ k, named? { c with rounds := k } method bins data = .error f) ∨
    ∃ m R, (Median.Method.ofName? method = some m ∨ finite data = []) ∧
      (∀ k, named? { c with rounds := k } method bins data = .ok (R k)) ∧
      Saturates { c with method := m, bins := bins.toNat } data R := by
  cases hm : Median.Method.ofName? method with
  | some m =>
    have hfault (k : Nat) :
        fault { c with rounds := k, method := m, bins := bins.toNat } bins data =
          fault { c with method := m, bins := bins.toNat } bins data := by
      rw [fault_eq { c with rounds := k, method := m, bins := bins.toNat } hmin,
        fault_eq { c with method := m, bins := bins.toNat } hmin]
    cases hf : fault { c with method := m, bins := bins.toNat } bins data with
    | none =>
      refine .inr ⟨m, _, .inl rfl, fun k => ?_,
        saturates_report { c with method := m, bins := bins.toNat } hmin data⟩
      simp only [named?, hm, hfault, hf]
    | some f =>
      refine .inl ⟨.inr (not_le.1 fun hbins => ?_), f, fun k => ?_⟩
      · rw [fault_eq_none { c with method := m, bins := bins.toNat } hmin fun _ => hbins] at hf
        cases hf
      · simp only [named?, hm, hfault, hf]
  | none =>
    by_cases hnil : finite data = []
    · -- without a finite value the method is not looked at
      refine .inr ⟨.exact, _, .inr hnil, fun k => ?_,
        saturates_report { c with method := .exact, bins := bins.toNat } hmin data⟩
      simp only [named?, hm, hnil, List.isEmpty_nil, if_true, report_of_nil hnil]
    · refine .inl ⟨.inl rfl, .unknownMethod, fun k => ?_⟩
      simp only [named?, hm, List.isEmpty_iff, hnil, if_false]

open Exact in
/-- An outlier of an outlier: one round cuts it, and a second is given up, on every budget that
allows it. -/
theorem named?_saturates_outlying : 1 ≤ (Clipping.standard : Clipping Exact).minCount ∧
    ∃ R : Nat → Report Exact,
      (∀ k, named? { Clipping.standard with rounds := k } "exact" 1000 outlying = .ok (R k)) ∧
      Saturates Clipping.standard outlying R ∧ (R 0).background.count = 9 ∧
      (R 1).background.count = 8 ∧ (R 1).background.reliable = true ∧
      ∀ k, 2 ≤ k → R k = R 2 ∧ (R k).background.count = 8 ∧ (R k).collapse = some ⟨7, 2⟩ := by
  have hmin := one_le_minCount_standard (α := Exact)
  have hexact : Median.Method.ofName? "exact" = some .exact := by decide
  refine ⟨hmin, ?_⟩
  rcases named?_saturates Clipping.standard hmin "exact" 1000 outlying with
    ⟨hfault, -⟩ | ⟨m, R, hm, hok, hR⟩
  · rw [hexact] at hfault
    exact absurd hfault (by decide)
  · obtain rfl : m = .exact := by
      rcases hm with hm | hnil
      · exact (Option.some.inj (hexact.symm.trans hm)).symm
      · exact absurd hnil (List.cons_ne_nil _ _)
    have hreport (k : Nat) : R k = reportAfter Clipping.standard outlying (min k 1) (k - min k 1) := by
      rw [← report_outlying]
      exact eq_report_outlying (hok k)
    have hcount (k : Nat) : (R (k + 1)).background.count = 8 := by
      rw [hreport, count_reportAfter, Nat.min_eq_right (Nat.le_add_left 1 k), Function.iterate_one,
        cut_outlying]
      rfl
    have hcollapse (k : Nat) : (R (k + 2)).collapse = some ⟨7, 2⟩ := by
      rw [hreport, ← report_outlying]
      exact collapse_outlying k
    refine ⟨R, hok, hR, ?_, hcount 0, ?_, fun k hk => ?_⟩
    · rw [hreport, count_reportAfter]
      rfl
    · rw [hreport, reliable_reportAfter]
      rfl
    · obtain ⟨k, rfl⟩ := Nat.exists_eq_add_of_le' hk
      refine ⟨hR.eq_of_collapse 2 ?_ (k + 2) ?_, hcount (k + 1), hcollapse k⟩
      · rw [hcollapse 0]
        rfl
      · exact (hR.rounds_le 2).trans hk

end SkySources.Background
