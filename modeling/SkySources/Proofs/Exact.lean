import Mathlib
import SkySources.Scalar

/-!
# Exact numbers

The real numbers with the two infinities and a missing number. Arithmetic on real
numbers is exact; otherwise the rules are those of doubles, except that there is
only one zero, which counts as positive where it divides. Every computation of
the library can be read over exact numbers, where nothing is rounded.

What is proved: finite numbers compute as real numbers do (`add_real`, `lt_real`,
…), and negation goes through every operation that the library builds on
(`neg_add_neg`, `neg_mul_eq`, `neg_lt_neg_eq`, …), whether the numbers are finite or not.
-/

namespace SkySources

/-- A real number, an infinity, or a missing number. -/
inductive Exact where
  | real (x : ℝ)
  | infinite (negative : Bool)
  | missing

namespace Exact

/-! ## Arithmetic -/

/-- An infinity times a real number. -/
noncomputable def stretch (s : Bool) (x : ℝ) : Exact :=
  if x = 0 then missing else if x < 0 then infinite !s else infinite s

def neg : Exact → Exact
  | real x => real (-x)
  | infinite s => infinite !s
  | missing => missing

noncomputable def add : Exact → Exact → Exact
  | real x, real y => real (x + y)
  | real _, infinite t => infinite t
  | infinite s, real _ => infinite s
  | infinite s, infinite t => if s = t then infinite s else missing
  | _, _ => missing

noncomputable def mul : Exact → Exact → Exact
  | real x, real y => real (x * y)
  | real x, infinite t => stretch t x
  | infinite s, real y => stretch s y
  | infinite s, infinite t => infinite (xor s t)
  | _, _ => missing

noncomputable def div : Exact → Exact → Exact
  | real x, real y => if y = 0 then stretch false x else real (x / y)
  | real _, infinite _ => real 0
  | infinite s, real y => if y < 0 then infinite !s else infinite s
  | _, _ => missing

def lt : Exact → Exact → Prop
  | real x, real y => x < y
  | real _, infinite t => t = false
  | infinite s, real _ => s = true
  | infinite s, infinite t => s = true ∧ t = false
  | _, _ => False

def le : Exact → Exact → Prop
  | real x, real y => x ≤ y
  | real _, infinite t => t = false
  | infinite s, real _ => s = true
  | infinite s, infinite t => s = true ∨ t = false
  | _, _ => False

def isFinite : Exact → Bool
  | real _ => true
  | _ => false

noncomputable def sqrt : Exact → Exact
  | real x => if x < 0 then missing else real √x
  | infinite false => infinite false
  | _ => missing

noncomputable def exp : Exact → Exact
  | real x => real (Real.exp x)
  | infinite s => if s then real 0 else infinite false
  | missing => missing

noncomputable def log : Exact → Exact
  | real x => if x < 0 then missing else if x = 0 then infinite true else real (Real.log x)
  | infinite false => infinite false
  | _ => missing

/-- A function that has no limit at infinity. -/
def onReal (f : ℝ → ℝ) : Exact → Exact
  | real x => real (f x)
  | _ => missing

/-- The whole part, toward zero. -/
noncomputable def wholePart (x : ℝ) : ℤ := if x < 0 then ⌈x⌉ else ⌊x⌋

noncomputable def remainder : Exact → Exact → Exact
  | real x, real y => if y = 0 then missing else real (x - y * wholePart (x / y))
  | real x, infinite _ => real x
  | _, _ => missing

noncomputable def truncate : Exact → ℤ
  | real x => wholePart x
  | _ => 0

noncomputable instance : Scalar Exact where
  add := add
  sub a b := add a (neg b)
  mul := mul
  div := div
  neg := neg
  lt := lt
  le := le
  ofScientific m s e := real (OfScientific.ofScientific m s e)
  ofInt n := real n
  missing := missing
  isFinite := isFinite
  sqrt := sqrt
  exp := exp
  log := log
  sin := onReal Real.sin
  cos := onReal Real.cos
  pi := real Real.pi
  remainder := remainder
  truncate := truncate
  epsilon := real (2 ^ (-52 : ℤ))
  tiny := real (2 ^ (-1022 : ℤ))
  decideLt := Classical.decRel _
  decideLe := Classical.decRel _

/-! ## Finite numbers -/

section Real
variable (x y : ℝ)

@[simp] theorem add_real : real x + real y = real (x + y) := rfl
@[simp] theorem neg_real : -real x = real (-x) := rfl
@[simp] theorem sub_real : real x - real y = real (x - y) := congrArg real (sub_eq_add_neg x y).symm
@[simp] theorem mul_real : real x * real y = real (x * y) := rfl
@[simp] theorem lt_real : real x < real y ↔ x < y := Iff.rfl
@[simp] theorem le_real : real x ≤ real y ↔ x ≤ y := Iff.rfl
@[simp] theorem isFinite_real : Scalar.isFinite (real x) = true := rfl
@[simp] theorem ofInt_eq (n : Int) : (Scalar.ofInt n : Exact) = real n := rfl

@[simp] theorem ofNat_eq (n : Nat) : (Scalar.ofNat n : Exact) = real n := by
  simp [Scalar.ofNat]

theorem ofScientific_eq (m : Nat) (s : Bool) (e : Nat) :
    (OfScientific.ofScientific m s e : Exact) = real (OfScientific.ofScientific m s e) := rfl

theorem zero_eq : (0.0 : Exact) = real 0 := by
  rw [ofScientific_eq]
  norm_num

theorem one_eq : (1.0 : Exact) = real 1 := by
  rw [ofScientific_eq]
  norm_num

theorem two_eq : (2.0 : Exact) = real 2 := by
  rw [ofScientific_eq]
  norm_num

theorem larger_real : Scalar.larger (real x) (real y) = real (max x y) := by
  rw [Scalar.larger, max_def]
  by_cases h : x < y
  · rw [if_pos ((lt_real x y).2 h), if_pos h.le]
  · rw [if_neg (mt (lt_real x y).1 h)]
    split
    · next hle => rw [le_antisymm hle (not_lt.1 h)]
    · rfl

theorem div_real {y : ℝ} (h : y ≠ 0) : real x / real y = real (x / y) := if_neg h

theorem sqrt_real {x : ℝ} (h : 0 ≤ x) : Scalar.sqrt (real x) = real √x := if_neg (not_lt.2 h)

end Real

theorem exists_real {a : Exact} (h : Scalar.isFinite a = true) : ∃ x, a = real x := by
  cases a with
  | real x => exact ⟨x, rfl⟩
  | infinite s => cases h
  | missing => cases h

/-- Finite numbers are real numbers. -/
theorem exists_map_real {xs : List Exact} (h : ∀ a ∈ xs, Scalar.isFinite a = true) :
    ∃ ys : List ℝ, xs = ys.map real := by
  induction xs with
  | nil => exact ⟨[], rfl⟩
  | cons a xs ih =>
    obtain ⟨y, rfl⟩ := exists_real (h a List.mem_cons_self)
    obtain ⟨ys, rfl⟩ := ih fun b hb => h b (List.mem_cons_of_mem _ hb)
    exact ⟨y :: ys, rfl⟩

/-! ## Negation -/

theorem stretch_neg (s : Bool) (x : ℝ) : stretch s (-x) = -stretch s x := by
  unfold stretch
  rcases lt_trichotomy x 0 with h | rfl | h
  · rw [if_neg (by linarith), if_neg (by linarith), if_neg h.ne, if_pos h]
    change infinite s = infinite !!s
    rw [Bool.not_not]
  · simp only [neg_zero, if_true]
    rfl
  · rw [if_neg (by linarith), if_pos (by linarith), if_neg h.ne', if_neg h.not_gt]
    rfl

theorem stretch_not (s : Bool) (x : ℝ) : stretch (!s) x = -stretch s x := by
  unfold stretch
  split
  · rfl
  · split <;> rfl

theorem neg_mul_eq (a b : Exact) : -a * b = -(a * b) := by
  cases a with
  | missing => rfl
  | real x =>
    cases b with
    | real y => exact congrArg real (neg_mul x y)
    | infinite t => exact stretch_neg t x
    | missing => rfl
  | infinite s =>
    cases b with
    | real y => exact stretch_not s y
    | infinite t => cases s <;> cases t <;> rfl
    | missing => rfl

theorem mul_comm_eq (a b : Exact) : a * b = b * a := by
  cases a with
  | missing => cases b <;> rfl
  | real x =>
    cases b with
    | real y => exact congrArg real (mul_comm x y)
    | infinite t => rfl
    | missing => rfl
  | infinite s =>
    cases b with
    | real y => rfl
    | infinite t => exact congrArg infinite (Bool.xor_comm s t)
    | missing => rfl

noncomputable instance : HasDistribNeg Exact where
  neg_neg a := by
    cases a with
    | real x => exact congrArg real (neg_neg x)
    | infinite s => exact congrArg infinite (Bool.not_not s)
    | missing => rfl
  neg_mul := neg_mul_eq
  mul_neg a b := by rw [mul_comm_eq, neg_mul_eq, mul_comm_eq]

section Neg
variable (a b : Exact)

theorem neg_add_neg : -a + -b = -(a + b) := by
  cases a with
  | missing => rfl
  | real x =>
    cases b with
    | real y => exact congrArg real (neg_add x y).symm
    | infinite t => rfl
    | missing => rfl
  | infinite s =>
    cases b with
    | real y => rfl
    | infinite t => cases s <;> cases t <;> rfl
    | missing => rfl

theorem add_comm_eq : a + b = b + a := by
  cases a with
  | missing => cases b <;> rfl
  | real x =>
    cases b with
    | real y => exact congrArg real (add_comm x y)
    | infinite t => rfl
    | missing => rfl
  | infinite s =>
    cases b with
    | real y => rfl
    | infinite t => cases s <;> cases t <;> rfl
    | missing => rfl

theorem sub_eq : a - b = a + -b := rfl

theorem sub_neg_eq_neg : -a - -b = -(a - b) := by
  rw [sub_eq, sub_eq, neg_add_neg]

theorem neg_div_eq : -a / b = -(a / b) := by
  cases a with
  | missing => rfl
  | real x =>
    cases b with
    | real y =>
      change (if y = 0 then stretch false (-x) else real (-x / y)) =
        -(if y = 0 then stretch false x else real (x / y))
      split
      · exact stretch_neg false x
      · exact congrArg real (neg_div y x)
    | infinite t => exact congrArg real neg_zero.symm
    | missing => rfl
  | infinite s =>
    cases b with
    | real y =>
      change (if y < 0 then infinite !!s else infinite !s) =
        -(if y < 0 then infinite !s else infinite s)
      split <;> rfl
    | infinite t => rfl
    | missing => rfl

@[simp] theorem neg_lt_neg_eq : -a < -b ↔ b < a := by
  cases a with
  | missing => cases b <;> exact Iff.rfl
  | real x =>
    cases b with
    | real y => exact (neg_lt_neg_iff : -x < -y ↔ y < x)
    | infinite t => exact Bool.not_eq_eq_eq_not
    | missing => exact Iff.rfl
  | infinite s =>
    cases b with
    | real y => exact Bool.not_eq_eq_eq_not
    | infinite t =>
      change ((!s) = true ∧ (!t) = false) ↔ (t = true ∧ s = false)
      cases s <;> cases t <;> decide
    | missing => exact Iff.rfl

@[simp] theorem neg_le_neg_eq : -a ≤ -b ↔ b ≤ a := by
  cases a with
  | missing => cases b <;> exact Iff.rfl
  | real x =>
    cases b with
    | real y => exact (neg_le_neg_iff : -x ≤ -y ↔ y ≤ x)
    | infinite t => exact Bool.not_eq_eq_eq_not
    | missing => exact Iff.rfl
  | infinite s =>
    cases b with
    | real y => exact Bool.not_eq_eq_eq_not
    | infinite t =>
      change ((!s) = true ∨ (!t) = false) ↔ (t = true ∨ s = false)
      cases s <;> cases t <;> decide
    | missing => exact Iff.rfl

theorem lt_neg_iff : a < -b ↔ b < -a := by
  rw [← neg_lt_neg_eq, neg_neg]

@[simp] theorem isFinite_neg : Scalar.isFinite (-a) = Scalar.isFinite a := by
  cases a <;> rfl

theorem neg_zero_eq : -(0.0 : Exact) = 0.0 := by
  rw [zero_eq, neg_real, neg_zero]

theorem lt_trans_eq {a b c : Exact} (h : a < b) (h' : b < c) : a < c := by
  cases a with
  | missing => cases b <;> exact h
  | real x =>
    cases b with
    | missing => cases c <;> exact absurd h id
    | real y =>
      cases c with
      | real z => exact lt_trans ((lt_real x y).1 h) ((lt_real y z).1 h')
      | infinite u => exact h'
      | missing => exact h'
    | infinite t =>
      cases c with
      | real z => exact absurd (h.symm.trans h') Bool.false_ne_true
      | infinite u => exact h'.2
      | missing => exact h'
  | infinite s =>
    cases b with
    | missing => cases c <;> exact absurd h id
    | real y =>
      cases c with
      | real z => exact h
      | infinite u => exact ⟨h, h'⟩
      | missing => exact h'
    | infinite t =>
      cases c with
      | real z => exact h.1
      | infinite u => exact ⟨h.1, h'.2⟩
      | missing => exact h'

theorem ofInt_neg (n : Int) : (Scalar.ofInt (-n) : Exact) = -Scalar.ofInt n := by
  simp

end Neg

/-! ## Distances and comparisons -/

section Distance
variable (a b : Exact)

@[simp] theorem abs_real (x : ℝ) : Scalar.abs (real x) = real |x| := by
  rw [Scalar.abs, zero_eq]
  by_cases h : x < 0
  · rw [if_pos ((lt_real x 0).2 h), abs_of_neg h]
    rfl
  · rw [if_neg (mt (lt_real x 0).1 h), abs_of_nonneg (not_lt.1 h)]

theorem abs_infinite (s : Bool) : Scalar.abs (infinite s) = infinite false := by
  rw [Scalar.abs, zero_eq]
  cases s with
  | false => exact if_neg Bool.false_ne_true
  | true => exact if_pos rfl

@[simp] theorem abs_neg_eq : Scalar.abs (-a) = Scalar.abs a := by
  cases a with
  | real x => rw [neg_real, abs_real, abs_real, abs_neg]
  | infinite s => exact (abs_infinite (!s)).trans (abs_infinite s).symm
  | missing => rfl

@[simp] theorem square_neg_eq : Scalar.square (-a) = Scalar.square a := neg_mul_neg a a

@[simp] theorem sameValue_neg : Scalar.sameValue (-a) (-b) = Scalar.sameValue a b := by
  simp only [Scalar.sameValue, neg_le_neg_eq]
  exact Bool.and_comm _ _

/-- A number that is not below zero is not below its negation either. -/
theorem not_lt_neg_of_nonneg {a : Exact} (h : 0.0 ≤ a) : ¬a < -a := by
  rw [zero_eq] at h
  cases a with
  | real x =>
    rw [le_real] at h
    rw [neg_real, lt_real]
    linarith
  | infinite s =>
    intro hlt
    exact Bool.false_ne_true (h.symm.trans hlt.1)
  | missing => exact id

end Distance

/-! ## Numbers moved by a real number -/

section Moved
variable (a b low high : Exact) (x d : ℝ)

theorem add_real_lt : a + real d < b + real d ↔ a < b := by
  cases a with
  | real x =>
    cases b with
    | real y =>
      rw [add_real, add_real, lt_real, lt_real]
      exact add_lt_add_iff_right d
    | infinite t => exact Iff.rfl
    | missing => exact Iff.rfl
  | infinite s => cases b <;> exact Iff.rfl
  | missing => cases b <;> exact Iff.rfl

theorem real_add_add : real (d + x) + a = real x + a + real d := by
  cases a with
  | real y =>
    rw [add_real, add_real, add_real]
    congr 1
    ring
  | infinite t => rfl
  | missing => rfl

/-- An interval and a number in it move together. -/
theorem clamp_add_real : Scalar.clamp (low + real d) (high + real d) (a + real d) =
    Scalar.clamp low high a + real d := by
  have hlarger : Scalar.larger (a + real d) (low + real d) = Scalar.larger a low + real d := by
    unfold Scalar.larger
    simp only [add_real_lt]
    split <;> rfl
  rw [Scalar.clamp, hlarger, Scalar.clamp]
  unfold Scalar.smaller
  simp only [add_real_lt]
  split <;> rfl

end Moved

/-- A difference whose first term is not finite is not finite. -/
theorem isFinite_of_isFinite_sub {a b : Exact} (h : Scalar.isFinite (a - b) = true) :
    Scalar.isFinite a = true := by
  cases a with
  | real x => rfl
  | missing => cases h
  | infinite s =>
    cases b with
    | real y => cases h
    | missing => cases h
    | infinite t => cases s <;> cases t <;> cases h

/-! ## Noise -/

/-- A number that is not below zero, or none at all. -/
def IsNoise (a : Exact) : Prop := 0.0 ≤ a ∨ a = missing

theorem isNoise_sqrt (a : Exact) : IsNoise (Scalar.sqrt a) := by
  rw [IsNoise, zero_eq]
  cases a with
  | real x =>
    by_cases h : x < 0
    · exact .inr (if_pos h)
    · rw [sqrt_real (not_lt.1 h)]
      exact .inl (Real.sqrt_nonneg x)
  | infinite s =>
    cases s with
    | false => exact .inl rfl
    | true => exact .inr rfl
  | missing => exact .inr rfl

theorem isNoise_stretch {x : ℝ} (h : 0 ≤ x) : IsNoise (stretch false x) := by
  rw [IsNoise, zero_eq, stretch]
  rcases h.eq_or_lt with rfl | hx
  · exact .inr (if_pos rfl)
  · rw [if_neg hx.ne', if_neg hx.not_gt]
    exact .inl rfl

theorem IsNoise.mul {a b : Exact} (ha : 0.0 ≤ a) (hb : IsNoise b) : IsNoise (a * b) := by
  rw [zero_eq] at ha
  rcases hb with hb | rfl
  · rw [zero_eq] at hb
    cases a with
    | missing => exact .inr rfl
    | real x =>
      cases b with
      | real y =>
        refine .inl ?_
        rw [zero_eq, mul_real, le_real]
        exact mul_nonneg ha hb
      | infinite t =>
        rw [show t = false from hb]
        exact isNoise_stretch ha
      | missing => exact .inr rfl
    | infinite s =>
      rw [show s = false from ha]
      cases b with
      | real y => exact isNoise_stretch hb
      | infinite t =>
        rw [show t = false from hb]
        exact .inl (by rw [zero_eq]; rfl)
      | missing => exact .inr rfl
  · exact .inr (by cases a <;> rfl)

theorem isNoise_of_pos {a : Exact} (h : 0.0 < a) : IsNoise a := by
  rw [zero_eq] at h
  refine .inl ?_
  rw [zero_eq]
  cases a with
  | real x => exact le_of_lt ((lt_real 0 x).1 h)
  | infinite s => exact h
  | missing => exact h

end Exact
end SkySources
