import SkySources.Minimise.LimitedMemory
import SkySources.Minimise.TrustRegion
import SkySources.Residuals
import SkySources.Text.Quoted

/-!
# Minimising the residuals

Three ways to find the Gaussian that comes closest to the observed pixels. Each
starts from given parameters, makes at most so many rounds or evaluations, and
reports whether it came to an end by itself. A search that cannot be begun is
refused.
-/

namespace SkySources

/-- How the closest Gaussian is found. -/
inductive Solver where
  /-- Descent with a full matrix of curvature. -/
  | quasiNewton
  /-- Descent with a short memory. -/
  | limitedMemory
  /-- Least squares in a trust region. -/
  | trustRegion
  deriving DecidableEq, Repr

/-- What a search ends with. -/
structure Outcome (α : Type) where
  params : List α
  converged : Bool
  /-- How many steps were taken, or how often the residuals were evaluated. -/
  iterations : Nat
  /-- Half the sum of the squared residuals. -/
  cost : α
  /-- The name of the method, a colon, and how it ended. -/
  report : String

/-- Why a search cannot be begun. -/
inductive Refusal where
  /-- No method has the name. -/
  | unknownSolver (name : String)
  /-- There are not as many parameters as a Gaussian has. -/
  | wrongParameters
  /-- No evaluation is allowed. -/
  | noEvaluations
  /-- A first parameter is missing. -/
  | missingParameter
  /-- The tolerance is finer than the numbers. -/
  | fineTolerance
  /-- A first residual is not finite. -/
  | nonFiniteResiduals
  /-- There are fewer residuals than parameters. -/
  | fewResiduals
  /-- More evaluations are allowed than can be counted. -/
  | uncountable
  deriving DecidableEq, Repr

/-- Why a search comes to no outcome. -/
inductive SearchFailure where
  /-- It cannot be begun, in words. -/
  | refused (text : String)
  /-- More evaluations are allowed than can be counted. -/
  | uncountable
  deriving DecidableEq, Repr

/-- A search from first parameters. -/
abbrev Minimiser (α : Type) := Residuals α → List α → Except SearchFailure (Outcome α)

namespace Solver

/-- Every method. -/
def all : List Solver := [quasiNewton, limitedMemory, trustRegion]

/-- The name of a method. -/
def name : Solver → String
  | quasiNewton => "line_search_bfgs"
  | limitedMemory => "line_search_lbfgs"
  | trustRegion => "trust_region_dense_qr"

/-- The method of a name. -/
def ofName? (text : String) : Option Solver := all.find? fun s => s.name = text

/-- The short name of a method, which begins its reports. -/
def shortName : Solver → String
  | quasiNewton => "BFGS"
  | limitedMemory => "L-BFGS-B"
  | trustRegion => "lm"

/-- How a method says that its rounds or evaluations were spent. -/
def spentText : Solver → String
  | quasiNewton => "Maximum number of iterations has been exceeded. (status 1)"
  | limitedMemory => "STOP: TOTAL NO. OF ITERATIONS REACHED LIMIT (status 1)"
  | trustRegion => "The maximum number of function evaluations is exceeded. (status 0)"

/-- How a descent says that it did not converge. -/
def endingText (s : Solver) (e : Minimise.Ending) : String :=
  match s, e with
  | limitedMemory, .stuck => "ABNORMAL:  (status 1)"
  | limitedMemory, .refused => "ERROR: FACTR < 0 (status 1)"
  | s, _ => s.spentText

/-- Whether a descent that may make so many rounds converged. Where no further
step was found there is nothing to improve; but with a short memory that only
counts if any round was allowed. -/
def hasConverged (s : Solver) (rounds : Int) (e : Minimise.Ending) : Bool :=
  match e with
  | .settled => true
  | .spent => false
  | .stuck | .refused => decide (s ≠ limitedMemory ∨ 0 < rounds)

/-- The report on a search that ended in some way. -/
def report (s : Solver) (converged : Bool) (e : Minimise.Ending) : String :=
  s.shortName ++ ": " ++ (if converged then "converged" else s.endingText e)

end Solver

namespace Refusal

/-- The text of a refusal. -/
def message : Refusal → String
  | unknownSolver name => Text.quoted name ++ " is not a valid SolverType"
  | wrongParameters => "wrong number of parameters"
  | noEvaluations => "`max_nfev` must be None or positive integer."
  | missingParameter => "Initial guess is outside of provided bounds"
  | fineTolerance =>
    "All tolerances must be higher than machine epsilon (2.22e-16) for method 'lm'."
  | nonFiniteResiduals => "Residuals are not finite in the initial point."
  | fewResiduals =>
    "Method 'lm' doesn't work when the number of residuals is less than the number of variables."
  | uncountable => "too many evaluations to count"

/-- The failure of a search that is refused. -/
def failure : Refusal → SearchFailure
  | uncountable => .uncountable
  | r => .refused r.message

end Refusal

namespace Residuals
variable {α : Type} [Scalar α]

/-- A function of a Gaussian as a function of its parameters. -/
def ofParams {β : Type} (f : Gaussian α → List β) (params : List α) : List β :=
  match Gaussian.ofList? params with
  | some g => f g
  | none => []

/-- The residuals as functions of the parameters. -/
def system (p : Residuals α) : Minimise.System α :=
  { residuals := ofParams p.values
    columns := ofParams fun g => (p.columns g).toList }

/-- The cost as a function of the parameters. -/
def objective (p : Residuals α) : Minimise.Objective α :=
  { value := fun params =>
      match Gaussian.ofList? params with
      | some g => p.cost g
      | none => Scalar.missing
    gradient := ofParams fun g => (p.gradient g).toList }

end Residuals

/-- The limits of a search. -/
structure SearchLimits (α : Type) where
  /-- The most rounds or evaluations. -/
  rounds : Int
  tolerance : α

namespace Solver
variable {α : Type} [Scalar α]

/-- What keeps a method from beginning with the limits; only one of them looks
at these first. -/
def limitsRefusal (s : Solver) (limits : SearchLimits α) (params : List α) : Option Refusal :=
  if s ≠ trustRegion then none
  else if limits.rounds ≤ 0 then some .noEvaluations
  else if params.any fun x => !Scalar.isNumber x then some .missingParameter
  else if limits.tolerance < Scalar.epsilon then some .fineTolerance
  else none

/-- What keeps a method from beginning with the residuals. -/
def residualsRefusal (s : Solver) (p : Residuals α) (params : List α) : Option Refusal :=
  if params.length ≠ 6 then some .wrongParameters
  else if s ≠ trustRegion then none
  else
    let residuals := p.system.residuals params
    if residuals.any fun r => !Scalar.isFinite r then some .nonFiniteResiduals
    else if residuals.length < params.length then some .fewResiduals
    else none

/-- The most evaluations that can be counted. -/
def countLimit : Int := 2147483647

/-- What keeps a method from beginning once everything else is in order. -/
def countRefusal (s : Solver) (limits : SearchLimits α) : Option Refusal :=
  if s = trustRegion ∧ countLimit < limits.rounds then some .uncountable else none

/-- The search by a method that may begin. -/
def run (s : Solver) (limits : SearchLimits α) (p : Residuals α) (params : List α) : Outcome α :=
  match s with
  | trustRegion =>
    let r := Minimise.TrustRegion.search p.system limits.tolerance limits.rounds.toNat params
    { params := r.params
      converged := r.converged
      iterations := r.evaluations
      cost := 0.5 * dot r.residuals r.residuals
      report := s.report r.converged .spent }
  | quasiNewton =>
    ofDescent (Minimise.QuasiNewton.search p.objective limits.tolerance limits.rounds.toNat params)
  | limitedMemory =>
    ofDescent
      (Minimise.LimitedMemory.search p.objective limits.tolerance limits.rounds.toNat params)
where
  /-- The products of the entries of two lists, added up. -/
  dot (xs ys : List α) : α := Minimise.dot xs ys
  /-- The outcome of a descent. -/
  ofDescent (d : Minimise.Descent α) : Outcome α :=
    let converged := s.hasConverged limits.rounds d.ending
    { params := d.params
      converged := converged
      iterations := d.steps
      cost := d.value
      report := s.report converged d.ending }

/-- The search by a method, unless it is refused. -/
def minimise (s : Solver) (limits : SearchLimits α) (p : Residuals α) (params : List α) :
    Except Refusal (Outcome α) :=
  let refusal := (s.limitsRefusal limits params).orElse fun _ =>
    (s.residualsRefusal p params).orElse fun _ => s.countRefusal limits
  match refusal with
  | some refusal => .error refusal
  | none => .ok (s.run limits p params)

/-- The search by the method of a name. -/
def named (name : String) (limits : SearchLimits α) (p : Residuals α) (params : List α) :
    Except Refusal (Outcome α) :=
  match ofName? name with
  | some s => s.minimise limits p params
  | none => .error (.unknownSolver name)

/-- The searches by a method. -/
def searches (s : Solver) (limits : SearchLimits α) : Minimiser α := fun p params =>
  (s.minimise limits p params).mapError Refusal.failure

/-- The searches by the method of a name. -/
def minimiser (name : String) (limits : SearchLimits α) : Minimiser α := fun p params =>
  (named name limits p params).mapError Refusal.failure

end Solver
end SkySources
