import Featherweight.Expr.Render
import Featherweight.Expr.Equality

/-! Errors: their kinds, the causes that evaluation finds, and what is reported about them. -/
namespace Featherweight

/-- Kinds of errors. -/
inductive ErrorKind where
  | error
  | runtime
  | typeMismatch
  | notCallable
  | arityMismatch
  | duplicateDeclaration
  | arithmetic
  deriving DecidableEq

namespace ErrorKind

def all : List ErrorKind :=
  [.error, .runtime, .typeMismatch, .notCallable, .arityMismatch, .duplicateDeclaration,
    .arithmetic]

def name : ErrorKind → String
  | error => "FwjsError"
  | runtime => "FwjsRuntimeError"
  | typeMismatch => "FwjsTypeMismatch"
  | notCallable => "FwjsNotCallable"
  | arityMismatch => "FwjsArityMismatch"
  | duplicateDeclaration => "FwjsDuplicateDeclaration"
  | arithmetic => "FwjsArithmeticError"

/-- The kind with the given name. -/
def ofName? (s : String) : Option ErrorKind :=
  all.find? fun k => k.name == s

theorem ofName?_name (k : ErrorKind) : ofName? k.name = some k := by
  cases k <;> decide

/-- The kinds that an error of this kind is of, the most general first. -/
def lineage : ErrorKind → List ErrorKind
  | error => [.error]
  | runtime => [.error, .runtime]
  | typeMismatch => [.error, .runtime, .typeMismatch]
  | notCallable => [.error, .runtime, .typeMismatch, .notCallable]
  | arityMismatch => [.error, .runtime, .arityMismatch]
  | duplicateDeclaration => [.error, .runtime, .duplicateDeclaration]
  | arithmetic => [.error, .runtime, .arithmetic]

theorem lineage_trans {k k' k'' : ErrorKind} (h : k' ∈ k.lineage) (h' : k'' ∈ k'.lineage) :
    k'' ∈ k.lineage := by
  revert h h'
  cases k <;> cases k' <;> cases k'' <;> decide

end ErrorKind

/-- What went wrong. -/
inductive Cause where
  /-- An operator was given something else than two integers. -/
  | operands (op : Operator) (left right : Value.Kind)
  /-- A condition is no bool. -/
  | condition (found : Value.Kind)
  /-- The condition of a loop is no bool any more. -/
  | loopCondition (found : Value.Kind)
  | divisionByZero
  | notCallable (found : Value.Kind)
  | arity (expected found : Nat)
  | duplicate (name : Name)
  /-- A value was asked for the integer that it is not. -/
  | expectedInt (found : Value)
  /-- A value was asked for the bool that it is not. -/
  | expectedBool (found : Value)
  deriving DecidableEq

namespace Cause

def kind : Cause → ErrorKind
  | operands .. | condition _ | loopCondition _ | expectedInt _ | expectedBool _ => .typeMismatch
  | divisionByZero => .arithmetic
  | notCallable _ => .notCallable
  | arity .. => .arityMismatch
  | duplicate _ => .duplicateDeclaration

def message : Cause → String
  | operands op l r =>
    "Operands of '" ++ op.symbol ++ "' must be ints, got " ++ l.name ++ " and " ++ r.name ++ "."
  | condition k => "Condition must be a bool, got " ++ k.name ++ "."
  | loopCondition k => "Loop condition must stay a bool, got " ++ k.name ++ "."
  | divisionByZero => "Division by zero."
  | notCallable k => "Can only call closures, got " ++ k.name ++ "."
  | arity expected found =>
    "Expected " ++ toString expected ++ " arguments but got " ++ toString found ++ "."
  | duplicate x => "Variable '" ++ x ++ "' is already declared in this scope."
  | expectedInt v => "Expected an int, got " ++ v.kind.name ++ " '" ++ v.display ++ "'."
  | expectedBool v => "Expected a bool, got " ++ v.kind.name ++ " '" ++ v.display ++ "'."

theorem runtime_mem_lineage (c : Cause) : .runtime ∈ c.kind.lineage := by
  cases c <;> simp [kind, ErrorKind.lineage]

end Cause

/-- How an evaluation fails. -/
inductive Failure where
  /-- An error of the program, and the node it is attached to. -/
  | error (cause : Cause) (node : Option Expr)
  /-- A text was needed of an integer with too many digits. -/
  | digitLimit
  deriving DecidableEq

/-- An error as it is reported. -/
structure Diagnostic where
  kind : ErrorKind
  message : String
  node : Option Expr
  deriving DecidableEq

namespace Diagnostic

/-- The report of an error found by evaluation. -/
def ofCause (cause : Cause) (node : Option Expr) : Diagnostic :=
  ⟨cause.kind, cause.message, node⟩

/-- One line: the kind in brackets, then the message. -/
def summary (d : Diagnostic) : String :=
  "[" ++ d.kind.name ++ "] " ++ d.message

/-- Whether the attached node, if there is one, can be written. -/
def isWritable (d : Diagnostic) : Bool :=
  d.node.all Expr.isWritable

end Diagnostic

namespace Value

/-- The integer that a value is. -/
def asInt : Value → Except Failure Int
  | .int n => .ok n
  | v => .error (.error (.expectedInt v) none)

/-- The bool that a value is. The message for another value shows it, so an integer needs few
enough digits. -/
def asBool : Value → Except Failure Bool
  | .bool b => .ok b
  | v => .error (if v.isWritable then .error (.expectedBool v) none else .digitLimit)

end Value

end Featherweight
