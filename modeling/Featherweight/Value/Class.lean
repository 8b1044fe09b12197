import Featherweight.Value.Basic

/-! Classes of values, as a check of several values at once names them. -/
namespace Featherweight

/-- The class of a kind of values. -/
def Value.Kind.className : Value.Kind → String
  | .int => "IntVal"
  | .bool => "BoolVal"
  | .undefined => "UndefinedVal"
  | .closure => "ClosureVal"

/-- All values, or the values of one kind. -/
inductive ValueClass where
  | any
  | only (kind : Value.Kind)
  deriving DecidableEq

namespace ValueClass

def all : List ValueClass :=
  .any :: Value.Kind.all.map .only

def name : ValueClass → String
  | any => "FwjsValue"
  | only kind => kind.className

/-- The class with the given name. -/
def ofName? (s : String) : Option ValueClass :=
  all.find? fun c => c.name == s

theorem ofName?_name (c : ValueClass) : ofName? c.name = some c := by
  rcases c with _ | kind
  · decide
  · cases kind <;> decide

/-- Whether the value belongs to the class. -/
def admits : ValueClass → Value → Bool
  | any, _ => true
  | only kind, v => decide (v.kind = kind)

/-- Whether one of the classes admits all the values. -/
def oneAdmitsAll (classes : List ValueClass) (values : List Value) : Bool :=
  classes.any fun c => values.all c.admits

theorem oneAdmitsAll_iff {classes : List ValueClass} {values : List Value} :
    oneAdmitsAll classes values = true ↔ ∃ c ∈ classes, ∀ v ∈ values, c.admits v = true := by
  simp [oneAdmitsAll]

end ValueClass

end Featherweight
