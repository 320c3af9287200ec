import Mathlib

/-!
# Attempts one after the other

A list of attempts stops at the first that fails. When all succeed, the results
are as many as the attempts, in the same order; whatever is known of each attempt
and its result is then known of the two lists.
-/

namespace SkySources

section Single
variable {ε ε' α β : Type}

theorem bind_eq_ok_iff {e : Except ε α} {f : α → Except ε β} {b : β} :
    e >>= f = .ok b ↔ ∃ a, e = .ok a ∧ f a = .ok b := by
  cases e with
  | error fault =>
    constructor
    · intro h
      cases h
    · intro h
      obtain ⟨a, ha, -⟩ := h
      cases ha
  | ok a =>
    constructor
    · exact fun h => ⟨a, rfl, h⟩
    · intro h
      obtain ⟨a', ha, h⟩ := h
      cases ha
      exact h

theorem map_eq_ok_iff {e : Except ε α} {f : α → β} {b : β} :
    e.map f = .ok b ↔ ∃ a, e = .ok a ∧ f a = b := by
  cases e with
  | error fault =>
    constructor
    · intro h
      cases h
    · intro h
      obtain ⟨a, ha, -⟩ := h
      cases ha
  | ok a =>
    constructor
    · exact fun h => ⟨a, rfl, Except.ok.inj h⟩
    · intro h
      obtain ⟨a', ha, rfl⟩ := h
      cases ha
      rfl

theorem mapError_eq_ok_iff {e : Except ε α} {f : ε → ε'} {a : α} :
    e.mapError f = .ok a ↔ e = .ok a := by
  cases e with
  | error fault =>
    constructor
    · intro h
      cases h
    · intro h
      cases h
  | ok a' => rw [Except.mapError, Except.ok.injEq, Except.ok.injEq]

end Single

section
variable {ε β γ δ : Type} {f : β → Except ε γ}

theorem map_ok_injective : Function.Injective (List.map (Except.ok : γ → Except ε γ)) :=
  List.map_injective_iff.2 fun _ _ h => by cases h; rfl

/-- Attempts that all succeed are known from their results. -/
theorem mapM_eq_ok_iff : ∀ {xs : List β} {ys : List γ},
    xs.mapM f = .ok ys ↔ xs.map f = ys.map .ok
  | [], ys => by cases ys <;> simp [pure, Except.pure]
  | x :: xs, ys => by
    rw [List.mapM_cons, List.map_cons]
    cases hx : f x with
    | error e => cases ys <;> simp [bind, Except.bind]
    | ok y =>
      cases hm : xs.mapM f with
      | error e =>
        cases ys with
        | nil => simp [bind, Except.bind]
        | cons z zs =>
          have hne : xs.map f ≠ zs.map .ok := fun h => by
            rw [mapM_eq_ok_iff.2 h] at hm
            cases hm
          simp [bind, Except.bind, hne]
      | ok zs =>
        rw [mapM_eq_ok_iff.1 hm]
        cases ys with
        | nil => simp [bind, Except.bind, pure, Except.pure]
        | cons w ws =>
          simp [bind, Except.bind, pure, Except.pure, map_ok_injective.eq_iff]

/-- Attempts whose results are changed afterwards. -/
theorem map_mapM (f : β → Except ε γ) (g : γ → δ) (xs : List β) :
    (xs.mapM f).map (List.map g) = xs.mapM fun x => (f x).map g := by
  induction xs with
  | nil => rfl
  | cons x xs ih =>
    rw [List.mapM_cons, List.mapM_cons, ← ih]
    cases f x with
    | error e => rfl
    | ok y => cases xs.mapM f <;> rfl

/-- The first attempt and all others succeed. -/
theorem mapM_cons_eq_ok {x : β} {xs : List β} {ys : List γ} (h : (x :: xs).mapM f = .ok ys) :
    ∃ z zs, f x = .ok z ∧ xs.mapM f = .ok zs ∧ ys = z :: zs := by
  rw [mapM_eq_ok_iff, List.map_cons] at h
  cases ys with
  | nil => cases h
  | cons z zs =>
    obtain ⟨hz, hzs⟩ := List.cons.inj h
    exact ⟨z, zs, hz, mapM_eq_ok_iff.2 hzs, rfl⟩

/-- Attempts that succeed one by one succeed together. -/
theorem exists_mapM_eq_ok {xs : List β} (h : ∀ x ∈ xs, ∃ y, f x = .ok y) :
    ∃ ys, xs.mapM f = .ok ys := by
  induction xs with
  | nil => exact ⟨[], rfl⟩
  | cons x xs ih =>
    obtain ⟨y, hy⟩ := h x List.mem_cons_self
    obtain ⟨ys, hys⟩ := ih fun x' hx' => h x' (List.mem_cons_of_mem x hx')
    refine ⟨y :: ys, ?_⟩
    rw [List.mapM_cons, hy, hys]
    rfl

/-- Every result is that of an attempt. -/
theorem exists_of_mem_mapM {xs : List β} {ys : List γ} (h : xs.mapM f = .ok ys) {y : γ}
    (hy : y ∈ ys) : ∃ x ∈ xs, f x = .ok y := by
  have hmem : Except.ok y ∈ xs.map f := by
    rw [mapM_eq_ok_iff.1 h]
    exact List.mem_map_of_mem hy
  exact List.mem_map.1 hmem

/-- Every attempt has a result. -/
theorem exists_ok_of_mem_mapM {xs : List β} {ys : List γ} (h : xs.mapM f = .ok ys) {x : β}
    (hx : x ∈ xs) : ∃ y, f x = .ok y := by
  have hmem : f x ∈ ys.map .ok := by
    rw [← mapM_eq_ok_iff.1 h]
    exact List.mem_map_of_mem hx
  obtain ⟨y, -, hy⟩ := List.mem_map.1 hmem
  exact ⟨y, hy.symm⟩

/-- What each attempt keeps, all of them keep. -/
theorem map_eq_of_mapM_eq_ok {g : γ → δ} {g' : β → δ} (hf : ∀ x y, f x = .ok y → g y = g' x)
    {xs : List β} {ys : List γ} (h : xs.mapM f = .ok ys) : ys.map g = xs.map g' := by
  induction xs generalizing ys with
  | nil =>
    cases h
    rfl
  | cons x xs ih =>
    obtain ⟨z, zs, hz, hzs, rfl⟩ := mapM_cons_eq_ok h
    rw [List.map_cons, List.map_cons, hf x z hz, ih hzs]

/-- Attempts can be left out before or after they are made. -/
theorem mapM_filter_eq_ok {p : β → Bool} {q : γ → Bool} (hf : ∀ x y, f x = .ok y → q y = p x)
    {xs : List β} {ys : List γ} (h : xs.mapM f = .ok ys) :
    (xs.filter p).mapM f = .ok (ys.filter q) := by
  induction xs generalizing ys with
  | nil =>
    cases h
    rfl
  | cons x xs ih =>
    obtain ⟨z, zs, hz, hzs, rfl⟩ := mapM_cons_eq_ok h
    rw [List.filter_cons, List.filter_cons, hf x z hz]
    split
    · rw [List.mapM_cons, hz, ih hzs]
      rfl
    · exact ih hzs

end
end SkySources
