import SkySources.Value.Text

/-!
# Kinds of values

A setting asks for a value of one of several kinds. A whole number may stand
where a float is asked for, and a truth value where a whole number is, but a
truth value is no float. Kinds can be joined to one that admits the values of
each, and a float that is hidden in such a kind takes no whole number. Kinds of
containers that say what they contain cannot be checked.
-/

namespace SkySources

/-- A kind of value. -/
inductive Kind where
  | nothing
  | truth
  | whole
  | float
  | text
  | list
  | table
  /-- Any value. -/
  | anything
  /-- A member of a named list of choices; a plain value is none. -/
  | member (choices : String)
  /-- A kind of another name, which no value is of. -/
  | foreign (name : String)
  /-- A kind that cannot be checked, in words. -/
  | unchecked (words : String)
  /-- A value of one of the kinds, with bars between them. -/
  | anyOf (kinds : List Kind)
  /-- A value of one of the kinds, in the long form. -/
  | union (kinds : List Kind)

namespace Kind

mutual

/-- The name of a kind, with that of the kind of nothing. -/
def named (none : String) : Kind → String
  | nothing => none
  | truth => "bool"
  | whole => "int"
  | float => "float"
  | text => "str"
  | list => "list"
  | table => "dict"
  | anything => "object"
  | member name | foreign name => name
  | unchecked words => words
  | anyOf kinds => " | ".intercalate (namedAll none kinds)
  | union kinds =>
    match kinds with
    | [k, nothing] | [nothing, k] => "typing.Optional[" ++ named none k ++ "]"
    | kinds => "typing.Union[" ++ ", ".intercalate (namedAll "NoneType" kinds) ++ "]"

/-- The names of several kinds. -/
def namedAll (none : String) : List Kind → List String
  | [] => []
  | k :: rest => named none k :: namedAll none rest

end

/-- The name of a kind among others. -/
def name (k : Kind) : String := k.named "None"

/-- The text of a kind. -/
def shown : Kind → String
  | member choices => "<enum '" ++ choices ++ "'>"
  | unchecked words => words
  | anyOf kinds => (anyOf kinds).name
  | union kinds => (union kinds).name
  | k => "<class '" ++ k.named "NoneType" ++ "'>"

/-- Whether a value is of a kind that is not made of others, if that can be told. -/
def admitsPlainly : Kind → Value → Option Bool
  | nothing, .nothing => some true
  | truth, .truth _ => some true
  | whole, .whole _ => some true
  | whole, .truth _ => some true
  | float, .float _ => some true
  | text, .text _ => some true
  | list, .list _ => some true
  | table, .table _ => some true
  | anything, _ => some true
  | unchecked _, _ => none
  | _, _ => some false

/-- Whether a value is of one of some kinds, in order; it cannot be told if a kind
that cannot be checked comes before the first that the value is of. -/
def firstAdmits (admits : Kind → Option Bool) : List Kind → Option Bool
  | [] => some false
  | k :: rest =>
    match admits k with
    | some false => firstAdmits admits rest
    | answer => answer

/-- Whether a kind cannot be checked. -/
def isUnchecked : Kind → Bool
  | unchecked _ => true
  | _ => false

/-- Whether a value is of the kind, if that can be told. Kinds with bars between
them are all looked at first. -/
def admits (k : Kind) (v : Value) : Option Bool :=
  match k with
  | anyOf kinds =>
    if kinds.any isUnchecked then none else firstAdmits (fun k => k.admitsPlainly v) kinds
  | union kinds => firstAdmits (fun k => k.admitsPlainly v) kinds
  | k => k.admitsPlainly v

/-- Whether the kind takes whole numbers for floats. -/
def isFloat : Kind → Bool
  | float => true
  | _ => false

end Kind

/-- What is wrong with the value of a setting. -/
inductive Mismatch where
  /-- No kind was asked for at all. -/
  | noKinds
  /-- The value is of none of the kinds. -/
  | kind (name : String) (value : Value) (kinds : List Kind)
  /-- The value is none of the choices. -/
  | choice (name : String) (value : Value) (choices : List String)
  /-- A kind that was asked for cannot be checked. -/
  | uncheckable

namespace Mismatch

/-- Alternatives in braces. -/
def among (alternatives : List String) : String :=
  "∉ \x7b" ++ ", ".intercalate alternatives ++ "\x7d"

/-- Whether the value that is wrong can be shown. -/
def isShowable : Mismatch → Bool
  | noKinds | uncheckable => true
  | kind _ value _ | choice _ value _ => value.isShowable

/-- The text where the value that is wrong cannot be shown. -/
def limitText : String :=
  "Exceeds the limit (" ++ Decimal.digitsText Text.digitLimit ++ " digits) for integer string "
    ++ "conversion; use sys.set_int_max_str_digits() to increase the limit"

/-- The text of a mismatch whose value can be shown. -/
def words : Mismatch → String
  | noKinds => "need at least one type to assert"
  | uncheckable => "the kind cannot be checked"
  | kind name value kinds =>
    let expected := match kinds with
      | [k] => "!= " ++ k.shown
      | ks => among (ks.map Kind.shown)
    name ++ ": type(" ++ value.shown ++ ") " ++ expected
  | choice name value choices => name ++ ": " ++ value.shown ++ " " ++ among choices

/-- The text of a mismatch. -/
def message (m : Mismatch) : String := if m.isShowable then m.words else limitText

end Mismatch

namespace Value

/-- Whether the value is of one of the kinds. A whole number also is where floats
are asked for. -/
def ofKinds (name : String) (v : Value) (kinds : List Kind) : Except Mismatch Unit :=
  if kinds.isEmpty then .error .noKinds
  else
    match Kind.firstAdmits (fun k => k.admits v) kinds, v with
    | none, _ => .error .uncheckable
    | some true, _ => .ok ()
    | some false, .whole _ =>
      if kinds.any Kind.isFloat then .ok () else .error (.kind name v kinds)
    | some false, _ => .error (.kind name v kinds)

/-- The warnings about a value of which a kind is asked for. Kinds with bars
between them are asked for one by one; the long form is not checked. -/
def meets (name : String) (v : Value) (k : Kind) : Except Mismatch (List String) :=
  match k with
  | .anyOf kinds => (ofKinds name v kinds).map fun _ => []
  | .union _ | .unchecked _ => .ok [name ++ ": cannot validate values of type " ++ k.shown]
  | k => (ofKinds name v [k]).map fun _ => []

/-- Whether the value is one of the choices. -/
def ofChoices (name : String) (v : Value) (choices : List String) : Except Mismatch Unit :=
  match v with
  | text s => if choices.contains s then .ok () else .error (.choice name v choices)
  | _ => .error (.choice name v choices)

end Value
end SkySources
