import Featherweight.Expr.Basic
import Featherweight.Text.Integer

/-! Values as programs and messages show them. -/
namespace Featherweight

/-- Names with a comma and a space between. -/
def commaSeparated (names : List String) : String :=
  ", ".intercalate names

namespace Value

/-- The four kinds of values. -/
inductive Kind where
  | int
  | bool
  | undefined
  | closure
  deriving DecidableEq

def Kind.all : List Kind :=
  [.int, .bool, .undefined, .closure]

/-- What messages call the kind. -/
def Kind.name : Kind → String
  | .int => "int"
  | .bool => "bool"
  | .undefined => "undefined"
  | .closure => "closure"

def kind : Value → Kind
  | .int _ => .int
  | .bool _ => .bool
  | .undefined => .undefined
  | .closure .. => .closure

theorem kind_eq_bool_iff {v : Value} : v.kind = .bool ↔ ∃ b, v = .bool b := by
  cases v <;> simp [kind]

theorem kind_eq_closure_iff {v : Value} :
    v.kind = .closure ↔ ∃ params body scope, v = .closure params body scope := by
  cases v <;> simp [kind]

/-- The text that printing shows. Of a closure only the parameters are shown. -/
def display : Value → String
  | .int n => toString n
  | .bool b => if b then "true" else "false"
  | .undefined => "undefined"
  | .closure params _ _ => "<closure(" ++ commaSeparated params ++ ")>"

/-- Whether the value can be written as a text at all. -/
def isWritable : Value → Bool
  | .int n => Text.isWritable n
  | _ => true

/-- The text of a value, unless it is an integer with too many digits. -/
def text? (v : Value) : Option String :=
  if v.isWritable then some v.display else none

theorem text?_eq_none_iff {v : Value} :
    v.text? = none ↔ ∃ n, v = .int n ∧ Text.isWritable n = false := by
  cases v with
  | int n => cases h : Text.isWritable n <;> simp [text?, isWritable, h]
  | _ => simp [text?, isWritable]

/-- The text that tells how the value is built. -/
def inspect : Value → String
  | .int n => "IntVal(value=" ++ toString n ++ ")"
  | .bool b => "BoolVal(value=" ++ (if b then "True" else "False") ++ ")"
  | .undefined => "UNDEFINED"
  | v => v.display

/-- The number of parameters of a closure. -/
def arity? : Value → Option Nat
  | .closure params _ _ => some params.length
  | _ => none

end Value

end Featherweight
