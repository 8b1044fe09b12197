import Featherweight.Error
import Featherweight.Heap.Basic

/-! Actions: what evaluation does to the heap and to the output. An action runs out of fuel, or
it ends in a value or a failure; effects before a failure stay. -/
namespace Featherweight

/-- What evaluation changes. -/
structure State where
  heap : Heap
  stdout : String

/-- A computation with a state. No result means that the fuel did not suffice. -/
abbrev Action (α : Type) := ExceptT Failure (StateT State Option) α

namespace Action

def outOfFuel {α : Type} : Action α := fun _ => none

/-- An error with a cause, attached to a node or to none. -/
def fail {α : Type} (cause : Cause) (node : Option Expr) : Action α :=
  fun s => some (.error (.error cause node), s)

/-- The value of a name as seen from scope `i`. -/
def resolve (i : Nat) (x : Name) : Action Value :=
  fun s => some (.ok (s.heap.resolve i x), s)

/-- Assigns to a name as seen from scope `i`. -/
def assign (i : Nat) (x : Name) (v : Value) : Action Unit :=
  fun s => some (.ok (), { s with heap := s.heap.assign i x v })

/-- Declares a name in scope `i`; a failure is attached to `node`. -/
def declare (i : Nat) (x : Name) (v : Value) (node : Option Expr) : Action Unit :=
  fun s =>
    if s.heap.binds i x then some (.error (.error (.duplicate x) node), s)
    else some (.ok (), { s with heap := s.heap.put i x v })

/-- Declares several names in scope `i`, in order. -/
def declareAll (i : Nat) : Bindings → Action Unit
  | [] => pure ()
  | (x, v) :: rest => do
    declare i x v none
    declareAll i rest

/-- Makes a scope and gives its number. -/
def newScope (enclosing : Option Nat) : Action Nat :=
  fun s => some (.ok s.heap.size, { s with heap := s.heap.newScope enclosing })

/-- Writes a line with the text of a value. -/
def printLine (v : Value) : Action Unit :=
  fun s =>
    match v.text? with
    | none => some (.error .digitLimit, s)
    | some text => some (.ok (), { s with stdout := s.stdout ++ text ++ "\n" })

theorem pure_apply {α : Type} (a : α) (s : State) : (pure a : Action α) s = some (.ok a, s) := rfl

theorem bind_apply {α β : Type} (m : Action α) (f : α → Action β) (s : State) :
    (m >>= f) s =
      match m s with
      | none => none
      | some (.error e, s') => some (.error e, s')
      | some (.ok a, s') => f a s' := by
  simp only [bind, ExceptT.bind, ExceptT.mk, StateT.bind, Option.bind]
  rcases m s with _ | ⟨_ | _, _⟩ <;> rfl

end Action

end Featherweight
