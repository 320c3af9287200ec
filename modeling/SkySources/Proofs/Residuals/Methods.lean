import Mathlib
import SkySources.Proofs.Residuals.Blocks

/-!
# Methods of differencing

What is computed of residuals block by block is computed pixel by pixel, so nothing depends
on the layout of the blocks: not the residuals, not their cost, and not their derivatives.
That includes derivatives whose differences another function takes, even where that function
answers for a block of one pixel in another form (`IsForward`).

What is proved:
  1. `values_ofObservations`, `jacobian_ofObservations`: residuals and derivatives, for
     every layout;
  2. `ofColumns?_eq`: three columns of one length are a list of observations;
  3. `jacobianBy_eq`: forward differences are the quotients, whoever takes them;
  4. `columns_layout`: all of it, of four sets of residuals that differ in method only.
-/

namespace SkySources.Residuals
variable {α : Type} [Scalar α]

/-! ## Residuals and derivatives -/

section Rows
variable (d : Differencing) (points : List (Observation α)) (g : Gaussian α)

/-- What is computed for each observation of each block is computed for each observation. -/
theorem flatMap_blocks {β : Type} (f : Observation α → β) :
    ((ofObservations d points).blocks.flatMap fun b => b.points.map f) = points.map f := by
  conv_rhs => rw [← points_ofObservations d points]
  rw [Residuals.points, List.map_flatMap]

theorem values_ofObservations : (ofObservations d points).values g = misses g points :=
  flatMap_blocks d points _

theorem cost_ofObservations :
    (ofObservations d points).cost g = 0.5 * dot (misses g points) (misses g points) := by
  rw [cost, values_ofObservations]

/-- The derivatives of the residuals depend on the method, but not on the layout. -/
theorem jacobian_ofObservations : (ofObservations d points).jacobian g =
    if d.isAnalytic then slopesAt g points else quotients g points := by
  have hd : (ofObservations d points).differencing = d := rfl
  rw [jacobian, hd]
  cases d.isAnalytic with
  | true => exact flatMap_blocks d points _
  | false => exact flatMap_blocks d points _

variable {d}

/-- Methods that only differ in their layout have the same derivatives. -/
theorem jacobian_layout {d' : Differencing} (h : d'.isAnalytic = d.isAnalytic) :
    (ofObservations d' points).jacobian g = (ofObservations d points).jacobian g := by
  rw [jacobian_ofObservations, jacobian_ofObservations, h]

theorem gradient_layout {d' : Differencing} (h : d'.isAnalytic = d.isAnalytic) :
    (ofObservations d' points).gradient g = (ofObservations d points).gradient g := by
  rw [gradient, gradient, columns, columns, jacobian_layout points g h, values_ofObservations,
    values_ofObservations]

end Rows

/-! ## Columns -/

/-- The observations of three columns of one length. -/
def observed (x y value : List α) : List (Observation α) :=
  (x.zip (y.zip value)).map fun p => ⟨p.1, p.2.1, p.2.2⟩

section Columns
variable {x y value : List α} (hy : y.length = x.length) (hvalue : value.length = x.length)
include hy hvalue

omit [Scalar α] in
theorem length_observed : (observed x y value).length = x.length := by
  simp [observed, hy, hvalue]

omit [Scalar α] in
theorem map_y_observed : (observed x y value).map (·.y) = y := by
  rw [observed, List.map_map]
  show (x.zip (y.zip value)).map (Prod.fst ∘ Prod.snd) = y
  rw [← List.map_map, List.map_snd_zip (by simp [hy, hvalue]), List.map_fst_zip (by omega)]

omit [Scalar α] hy hvalue in
theorem part_observed (r : Nat × Nat) :
    part r (observed x y value) = observed (part r x) (part r y) (part r value) := by
  simp only [observed, part, List.zip_eq_zipWith, ← List.map_take, ← List.map_drop,
    List.take_zipWith, List.drop_zipWith]

omit [Scalar α] hy hvalue in
theorem stretched?_self (xs : List α) : stretched? xs.length xs = some xs := by
  unfold stretched?
  split
  · rfl
  · exact if_pos rfl

omit [Scalar α] in
theorem align?_eq (d : Differencing) : align? d x y value = some (observed x y value) := by
  have hlength : commonLength x.length x.length = x.length := ite_self _
  have hx : stretched? x.length x = some x := stretched?_self x
  have hy' : stretched? x.length y = some y := hy ▸ stretched?_self y
  have hvalue' : stretched? x.length value = some value := hvalue ▸ stretched?_self value
  simp only [align?, hy, hvalue, hlength, hx, hy', hvalue', ne_eq, not_true_eq_false, and_false,
    if_false, Option.bind_eq_bind, Option.bind_some]
  rfl

/-- Three columns of one length are a list of observations. -/
theorem ofColumns?_eq (d : Differencing) :
    ofColumns? d x y value = some (ofObservations d (observed x y value)) := by
  have hpart {xs ys : List α} (h : ys.length = xs.length) (r : Nat × Nat) :
      (part r ys).length = (part r xs).length := by
    simp only [part, List.length_drop, List.length_take, h]
  have hblock (r : Nat × Nat) : (do
      let points ← align? d (part r x) (part r y) (part r value)
      some (⟨r.1, r.2, points⟩ : Block α)) =
      pure ⟨r.1, r.2, part r (observed x y value)⟩ := by
    rw [align?_eq (hpart hy r) (hpart hvalue r), part_observed]
    rfl
  rw [ofColumns?]
  simp only [hblock, List.mapM_pure]
  rw [ofObservations, map_y_observed hy hvalue, length_observed hy hvalue, hvalue]
  rfl

end Columns

/-! ## Differences of another function -/

/-- An array of one dimension, or of two. -/
inductive Sheet (β : Type) where
  | flat (entries : List β)
  | table (rows : List (List β))

/-- Every entry of an array, row by row. -/
def Sheet.cells {β : Type} : Sheet β → List β
  | .flat entries => entries
  | .table rows => rows.flatten

/-- Entries in rows of six; what is left behind the last full row is not a row. -/
def sixes {β : Type} : List β → List (Gaussian β)
  | a :: x :: y :: s :: t :: h :: rest => ⟨a, x, y, s, t, h⟩ :: sixes rest
  | _ => []

theorem sixes_flatten {β : Type} (rows : List (Gaussian β)) :
    sixes (rows.map Gaussian.toList).flatten = rows := by
  induction rows with
  | nil => rfl
  | cons row rows ih =>
    show row :: sixes (rows.map Gaussian.toList).flatten = row :: rows
    rw [ih]

/-- A function that takes differences: of a list of functions, at some parameters, with a
step for each parameter. -/
abbrev Differences (α : Type) :=
  List (Gaussian α → α) → Gaussian α → Gaussian α → Sheet α

/-- For each parameter, the parameters with only that one moved by its step. -/
def moved (g steps : Gaussian α) : Gaussian (Gaussian α) :=
  { amplitude := { g with amplitude := g.amplitude + steps.amplitude }
    xCentre := { g with xCentre := g.xCentre + steps.xCentre }
    yCentre := { g with yCentre := g.yCentre + steps.yCentre }
    semimajor := { g with semimajor := g.semimajor + steps.semimajor }
    semiminor := { g with semiminor := g.semiminor + steps.semiminor }
    theta := { g with theta := g.theta + steps.theta } }

/-- The forward differences of a function along the parameters, over their steps. -/
def forward (g steps : Gaussian α) (f : Gaussian α → α) : Gaussian α :=
  ((moved g steps).map fun m => f m - f g).zipWith (· / ·) steps

/-- The function takes forward differences. A list of functions gives a table with a row
for each of them, but one function gives a single row without a second dimension. -/
structure IsForward (differences : Differences α) : Prop where
  flat : ∀ f g steps, differences [f] g steps = .flat (forward g steps f).toList
  table : ∀ fs g steps, fs.length ≠ 1 →
    differences fs g steps = .table (fs.map fun f => (forward g steps f).toList)

def forwardSheet : Differences α := fun fs g steps =>
  match fs with
  | [f] => .flat (forward g steps f).toList
  | fs => .table (fs.map fun f => (forward g steps f).toList)

theorem isForward_forwardSheet : IsForward (forwardSheet : Differences α) where
  flat _ _ _ := rfl
  table fs g steps h := by
    unfold forwardSheet
    split
    · exact absurd rfl h
    · rfl

/-- The residual at an observation, as a function of the parameters. -/
def missAt (o : Observation α) (g : Gaussian α) : α := g.value o.x o.y - o.value

/-- The derivatives of the residuals, where another function takes the differences of a
block. -/
def jacobianBy (differences : Differences α) (p : Residuals α) (g : Gaussian α) :
    List (Gaussian α) :=
  p.blocks.flatMap fun b =>
    if p.differencing.isAnalytic then slopesAt g b.points
    else sixes (differences (b.points.map missAt) g (g.map stepOf)).cells

/-- Whatever form the differences have, they are one row for each function. -/
theorem IsForward.sixes_cells {differences : Differences α} (h : IsForward differences)
    (fs : List (Gaussian α → α)) (g steps : Gaussian α) :
    sixes (differences fs g steps).cells = fs.map (forward g steps) := by
  have hrows : sixes (fs.map fun f => (forward g steps f).toList).flatten =
      fs.map (forward g steps) := by
    have hflatten := sixes_flatten (fs.map (forward g steps))
    rwa [List.map_map] at hflatten
  by_cases hlength : fs.length = 1
  · obtain ⟨f, rfl⟩ := List.length_eq_one_iff.1 hlength
    rw [h.flat]
    rfl
  · rw [h.table fs g steps hlength]
    exact hrows

section Exact
open Exact

theorem stepOf_real (u : ℝ) : ∃ h, stepOf (real u) = real h := by
  have hepsilon : Scalar.sqrt (Scalar.epsilon : Exact) = real √(2 ^ (-52 : ℤ)) :=
    sqrt_real (by positivity)
  have habs : ∃ v, Scalar.abs (real u) = real v := by
    unfold Scalar.abs
    split
    · exact ⟨_, rfl⟩
    · exact ⟨_, rfl⟩
  obtain ⟨v, hv⟩ := habs
  rw [stepOf, hepsilon, hv, one_eq, larger_real, mul_real]
  exact ⟨_, rfl⟩

/-- Nothing is lost of a step that is not rounded. -/
theorem add_stepOf_sub {a : Exact} (ha : Scalar.isFinite a = true) :
    a + stepOf a - a = stepOf a := by
  obtain ⟨u, rfl⟩ := exists_real ha
  obtain ⟨h, hh⟩ := stepOf_real u
  rw [hh, add_real, sub_real, add_sub_cancel_left]

/-- The quotients of a residual are its forward differences. -/
theorem quotients_eq {g : Gaussian Exact} (hg : g.isFinite = true)
    (points : List (Observation Exact)) :
    quotients g points = (points.map missAt).map (forward g (g.map stepOf)) := by
  have hsteps : (g.map fun x => x + stepOf x - x) = g.map stepOf := by
    simp only [Gaussian.isFinite, Gaussian.toList, List.all_cons, List.all_nil,
      Bool.and_eq_true] at hg
    obtain ⟨ha, hx, hy, hs, ht, hh, _⟩ := hg
    rw [Gaussian.map, Gaussian.map, add_stepOf_sub ha, add_stepOf_sub hx, add_stepOf_sub hy,
      add_stepOf_sub hs, add_stepOf_sub ht, add_stepOf_sub hh]
  rw [quotients, hsteps, List.map_map]
  rfl

/-- It does not matter which function takes the differences, if they are forward
differences. -/
theorem jacobianBy_eq {differences : Differences Exact} (h : IsForward differences)
    {g : Gaussian Exact} (hg : g.isFinite = true) (p : Residuals Exact) :
    jacobianBy differences p g = p.jacobian g := by
  unfold jacobianBy jacobian
  congr 1
  funext b
  rw [h.sixes_cells, ← quotients_eq hg]

/-! ## The four methods -/

section Methods
variable {x y value : List Exact}

/-- Three columns of one length are residuals for each of the four methods, and the methods
differ in how the derivatives are obtained only. The blocks of those with many blocks follow
the rows, whatever the order of the rows. Residuals and cost are the same for all four.
Derivatives are the same for both analytic methods, and for both numeric methods; the
numeric ones may be taken by another function, if the parameters are finite. -/
theorem columns_layout (hy : y.length = x.length) (hvalue : value.length = x.length)
    (hpixel : 0 < x.length) (hrows : ∀ r ∈ y, Scalar.isFinite r = true) :
    ∃ p : Differencing → Residuals Exact,
      (∀ d, ofColumns? d x y value = some (p d)) ∧
      (∀ d, d.isSingleBlock = false → LaidOut (observed x y value) (p d).blocks) ∧
      ∀ g,
        (∀ d, (p d).values g = misses g (observed x y value)) ∧
        (∀ d d', (p d').values g = (p d).values g ∧ (p d').cost g = (p d).cost g) ∧
        (∀ d d', d'.isAnalytic = d.isAnalytic →
          (p d').jacobian g = (p d).jacobian g ∧ (p d').gradient g = (p d).gradient g) ∧
        ∀ differences, IsForward differences → g.isFinite = true →
          ∀ d, jacobianBy differences (p d) g = (p d).jacobian g := by
  refine ⟨fun d => ofObservations d (observed x y value), ofColumns?_eq hy hvalue, ?_, ?_⟩
  · intro d hd
    have hne : observed x y value ≠ [] := by
      rwa [← List.length_pos_iff, length_observed hy hvalue]
    refine laidOut_ofObservations ?_ hd hne
    intro o ho
    apply hrows
    rw [← map_y_observed hy hvalue]
    exact List.mem_map_of_mem ho
  · intro g
    refine ⟨fun d => values_ofObservations d _ g, ?_, ?_, ?_⟩
    · intro d d'
      rw [values_ofObservations, values_ofObservations, cost_ofObservations, cost_ofObservations]
      exact ⟨rfl, rfl⟩
    · exact fun d d' h => ⟨jacobian_layout _ g h, gradient_layout _ g h⟩
    · exact fun differences h hg d => jacobianBy_eq h hg _

/-- Rows in no order, two of them with one pixel. -/
def unevenRows : List Exact := [real 1, real 1, real 0, real 1]

def unevenColumns : List Exact := [real 0, real 1, real 0, real (-1)]

def unevenValues : List Exact := [real 1, real 0, missing, real (-1)]

def upright : Gaussian Exact := ⟨real 1, real 0, real 1, real 1, real 1, real 0⟩

/-- The four methods at four pixels in three blocks. -/
theorem columns_layout_uneven : ∃ p : Differencing → Residuals Exact,
    (∀ d, ofColumns? d unevenColumns unevenRows unevenValues = some (p d)) ∧
    LaidOut (observed unevenColumns unevenRows unevenValues) (p .analytic).blocks ∧
    LaidOut (observed unevenColumns unevenRows unevenValues) (p .numeric).blocks ∧
    (p .numericSingleBlock).cost upright = (p .analytic).cost upright ∧
    (p .analyticSingleBlock).gradient upright = (p .analytic).gradient upright ∧
    jacobianBy forwardSheet (p .numeric) upright = (p .numericSingleBlock).jacobian upright := by
  have hrows : ∀ r ∈ unevenRows, Scalar.isFinite r = true := by
    intro r hr
    obtain ⟨v, _, rfl⟩ : ∃ v ∈ ([1, 1, 0, 1] : List ℝ), real v = r := List.mem_map.1 hr
    exact isFinite_real v
  obtain ⟨p, hp, hlaid, hsame⟩ := @columns_layout unevenColumns unevenRows unevenValues rfl rfl
    (by decide) hrows
  obtain ⟨-, hvalues, hderivatives, hdifferences⟩ := hsame upright
  refine ⟨p, hp, hlaid .analytic rfl, hlaid .numeric rfl, (hvalues _ _).2,
    (hderivatives .analytic .analyticSingleBlock rfl).2, ?_⟩
  rw [hdifferences forwardSheet isForward_forwardSheet rfl .numeric,
    (hderivatives .numericSingleBlock .numeric rfl).1]

end Methods

end Exact

end SkySources.Residuals
