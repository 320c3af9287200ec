import SkySources.Moment

/-!
# Values of settings

A setting is read as a value of one of a few kinds, and a section of settings
as a table of named values. Tables keep the order in which their names came.
-/

namespace SkySources

/-- A value as it was read. -/
inductive Value where
  | nothing
  | truth (b : Bool)
  | whole (n : Int)
  | float (x : Float)
  | text (s : String)
  | moment (m : Moment)
  | list (items : List Value)
  | table (entries : List (String × Value))
  deriving Inhabited

/-- Named values in the order of their names. -/
abbrev Table := List (String × Value)

namespace Value

mutual

/-- How many lists and tables stand in each other. -/
def depth : Value → Nat
  | list items => depthOfAll items + 1
  | table entries => depthOfEntries entries + 1
  | _ => 0

/-- The greatest depth of several values. -/
def depthOfAll : List Value → Nat
  | [] => 0
  | v :: rest => max (depth v) (depthOfAll rest)

/-- The greatest depth of the entries of a table. -/
def depthOfEntries : List (String × Value) → Nat
  | [] => 0
  | (_, v) :: rest => max (depth v) (depthOfEntries rest)

end

/-- The greatest depth of values that can be gone through from outside to inside. -/
def depthLimit : Nat := 497

end Value

namespace Table

/-- The value of a name. -/
def get? (t : Table) (name : String) : Option Value := t.lookup name

/-- The names of a table. -/
def names (t : Table) : List String := t.map (·.1)

end Table
end SkySources
