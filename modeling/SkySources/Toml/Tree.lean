import SkySources.Value

/-!
# The tables of a document

A document fills a tree of tables. A table comes about in one of three ways, and
that decides what may still be said about it: one that is only implied by a
longer name can be declared later; one that is opened by a dotted name can be
filled further in the same section; one that was declared, or opened in an
earlier section, is closed to both. Values never change, and of several tables
of one name only the last is filled.
-/

namespace SkySources.Toml

/-- How a table came about. -/
inductive Origin where
  /-- By a declaration of a table within it. -/
  | implied
  /-- By a dotted name of the present section. -/
  | dotted
  /-- By a declaration, or by a dotted name of an earlier section. -/
  | closed
  deriving DecidableEq, Repr

/-- What stands behind a name. -/
inductive Node where
  | value (v : Value)
  | table (origin : Origin) (entries : List (String × Node))
  /-- Several tables: the finished ones, and the one that is being filled. -/
  | tables (finished : List Value) (entries : List (String × Node))

/-- The names of a table with what stands behind them. -/
abbrev Entries := List (String × Node)

mutual

/-- The value that a node has become. -/
def Node.toValue : Node → Value
  | .value v => v
  | .table _ entries => .table (valuesOf entries)
  | .tables finished entries => .list (finished ++ [.table (valuesOf entries)])

/-- The values of several entries. -/
def valuesOf : List (String × Node) → List (String × Value)
  | [] => []
  | (name, node) :: rest => (name, node.toValue) :: valuesOf rest

end

mutual

/-- The node when a section ends: what dotted names opened is closed. -/
def Node.settled : Node → Node
  | .value v => .value v
  | .table origin entries =>
    .table (if origin = .dotted then .closed else origin) (settledAll entries)
  | .tables finished entries => .tables finished (settledAll entries)

/-- Several entries when a section ends. -/
def settledAll : List (String × Node) → List (String × Node)
  | [] => []
  | (name, node) :: rest => (name, node.settled) :: settledAll rest

end

namespace Entries

/-- The entries with a name standing for a node, in its old place or at the end. -/
def put (name : String) (node : Node) : Entries → Entries
  | [] => [(name, node)]
  | (other, old) :: rest =>
    if other = name then (name, node) :: rest else (other, old) :: put name node rest

/-- The entries with a value behind a dotted name; none if the name is taken or
leads through something closed. -/
def assign (v : Value) : List String → Entries → Option Entries
  | [], _ => none
  | [name], es => if (es.lookup name).isSome then none else some (es ++ [(name, .value v)])
  | name :: path, es =>
    match es.lookup name with
    | none => (assign v path []).map fun inner => es.put name (.table .dotted inner)
    | some (.table .closed _) => none
    | some (.table _ inner) =>
      (assign v path inner).map fun inner => es.put name (.table .dotted inner)
    | some _ => none

/-- A change of the table that a name of a declared table leads to; tables on the
way are implied. -/
def within (change : Entries → Option Entries) : List String → Entries → Option Entries
  | [], es => change es
  | name :: path, es =>
    match es.lookup name with
    | none => (within change path []).map fun inner => es.put name (.table .implied inner)
    | some (.table origin inner) =>
      (within change path inner).map fun inner => es.put name (.table origin inner)
    | some (.tables finished inner) =>
      (within change path inner).map fun inner => es.put name (.tables finished inner)
    | some (.value _) => none

/-- A table is declared: there must be none, or only an implied one. -/
def declare (name : String) (es : Entries) : Option Entries :=
  match es.lookup name with
  | none => some (es.put name (.table .closed []))
  | some (.table .implied inner) => some (es.put name (.table .closed inner))
  | some _ => none

/-- One more of several tables is begun. -/
def beginNext (name : String) (es : Entries) : Option Entries :=
  match es.lookup name with
  | none => some (es.put name (.tables [] []))
  | some (.tables finished inner) =>
    some (es.put name (.tables (finished ++ [.table (valuesOf inner)]) []))
  | some _ => none

/-- A change behind the last name of a path. -/
def atLast (change : String → Entries → Option Entries) (path : List String) (es : Entries) :
    Option Entries :=
  match path.getLast? with
  | some name => es.within (change name) path.dropLast
  | none => none

end Entries
end SkySources.Toml
