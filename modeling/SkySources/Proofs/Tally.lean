import Mathlib

/-!
# Keeping accounts

One pass over a list keeps an account for each key from zero on, and each entry
changes the account of its key only; a key past the last account is passed over. Then
every account is what the entries of its key alone make of it, in their order
(`foldl_change`).
-/

namespace SkySources.Tally
variable {β γ : Type}

/-- The accounts after one more entry, which changes the account of its key, if it has one. -/
def change (key : β → Option Nat) (f : γ → β → γ) (accounts : List γ) (x : β) : List γ :=
  match key x with
  | none => accounts
  | some k => accounts.modify k fun c => f c x

theorem foldl_change (key : β → Option Nat) (f : γ → β → γ) (count : Nat) (start : γ)
    (xs : List β) : xs.foldl (change key f) (List.replicate count start) =
      (List.range count).map fun k => (xs.filter fun x => key x = some k).foldl f start := by
  induction xs using List.reverseRecOn with
  | nil => simp
  | append_singleton xs x ih =>
    rw [List.foldl_append, List.foldl_cons, List.foldl_nil, ih, change]
    apply List.ext_getElem?
    intro j
    by_cases hj : j < count
    · cases hk : key x with
      | none => simp [hj, hk]
      | some k =>
        -- the entry is the last one of its own key, and none of any other
        by_cases hkj : k = j
        · simp [hj, hk, hkj]
        · simp [hj, hk, hkj]
    · cases key x <;> simp [hj]

end SkySources.Tally
