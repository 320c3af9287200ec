import SkySources.Text.Number
import SkySources.Text.Quoted
import SkySources.Value

/-!
# How values are shown

In messages a value is shown as it would be written down: text in quotes, lists
in brackets, tables in braces, and floats so that they can be told from whole
numbers. A whole number with too many digits cannot be shown at all.
-/

namespace SkySources.Value

/-- The text of a truth value. -/
def truthText (b : Bool) : String := if b then "True" else "False"

mutual

/-- The text of a value. -/
def shown : Value → String
  | nothing => "None"
  | truth b => truthText b
  | whole n => Decimal.integerText n
  | float x => Decimal.shortestText x
  | text s => Text.quoted s
  | moment m => m.text
  | list items => "[" ++ ", ".intercalate (shownAll items) ++ "]"
  | table entries => "\x7b" ++ ", ".intercalate (shownEntries entries) ++ "\x7d"

/-- The texts of several values. -/
def shownAll : List Value → List String
  | [] => []
  | v :: rest => shown v :: shownAll rest

/-- The texts of the entries of a table. -/
def shownEntries : List (String × Value) → List String
  | [] => []
  | (name, v) :: rest => (Text.quoted name ++ ": " ++ shown v) :: shownEntries rest

end

mutual

/-- Whether no whole number in a value has too many digits to be shown. -/
def isShowable : Value → Bool
  | whole n => decide (n.natAbs < Nat.pow 10 Text.digitLimit)
  | list items => areShowable items
  | table entries => areShowableIn entries
  | _ => true

/-- Whether several values can be shown. -/
def areShowable : List Value → Bool
  | [] => true
  | v :: rest => isShowable v && areShowable rest

/-- Whether the values of some entries can be shown. -/
def areShowableIn : List (String × Value) → Bool
  | [] => true
  | (_, v) :: rest => isShowable v && areShowableIn rest

end

/-- The text of a value as part of a sentence, where a text stands without quotes. -/
def plain : Value → String
  | text s => s
  | v => v.shown

end SkySources.Value
