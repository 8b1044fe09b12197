import Featherweight.Heap.Scope
import Featherweight.Value.Basic

/-! The heap: all scopes made so far. A scope encloses only scopes that are made later, so a
walk outward from scope `i` visits at most `i + 1` scopes. -/
namespace Featherweight

/-- All scopes, numbered in order of creation. -/
structure Heap where
  scopes : Array Scope

namespace Heap

def empty : Heap := ⟨#[]⟩

def size (h : Heap) : Nat := h.scopes.size

/-- The scope with a number. -/
def scope? (h : Heap) (i : Nat) : Option Scope := h.scopes[i]?

/-- The scope around a scope; none around a global one. -/
def enclosing? (h : Heap) (i : Nat) : Option Nat :=
  (h.scope? i).bind Scope.enclosing

/-- The bindings of a scope. -/
def bindings (h : Heap) (i : Nat) : Bindings :=
  ((h.scope? i).map Scope.bindings).getD []

/-- What the scope itself, and none around it, binds a name to. -/
def find? (h : Heap) (i : Nat) (x : Name) : Option Value :=
  (h.bindings i).find? x

/-- Whether the scope itself binds a name. -/
def binds (h : Heap) (i : Nat) (x : Name) : Bool :=
  (h.find? i x).isSome

/-- Whether nothing encloses the scope. -/
def isGlobal (h : Heap) (i : Nat) : Bool :=
  (h.enclosing? i).isNone

/-- The first `steps` scopes on the way outward from `i`. -/
def chainFrom (h : Heap) : Nat → Nat → List Nat
  | 0, _ => []
  | steps + 1, i =>
    match h.scope? i with
    | none => []
    | some scope =>
      match scope.enclosing with
      | none => [i]
      | some j => i :: h.chainFrom steps j

/-- The scopes from `i` outward to the global one. -/
def chain (h : Heap) (i : Nat) : List Nat :=
  h.chainFrom (i + 1) i

/-- The global scope that the chain of `i` ends in. -/
def globalOf (h : Heap) (i : Nat) : Nat :=
  (h.chain i).getLastD i

/-- The innermost scope on the chain of `i` that binds a name. -/
def owner? (h : Heap) (i : Nat) (x : Name) : Option Nat :=
  (h.chain i).find? fun j => h.binds j x

/-- The value of a name in scope `i`: an unbound name is undefined. -/
def resolve (h : Heap) (i : Nat) (x : Name) : Value :=
  ((h.chain i).findSome? fun j => h.find? j x).getD .undefined

/-- Binds a name in the scope itself, over a binding that is there. -/
def put (h : Heap) (i : Nat) (x : Name) (v : Value) : Heap :=
  ⟨h.scopes.modify i fun scope => { scope with bindings := scope.bindings.put x v }⟩

/-- The scope that an assignment writes to: the innermost that binds the name, or else the
global one. -/
def target (h : Heap) (i : Nat) (x : Name) : Nat :=
  (h.owner? i x).getD (h.globalOf i)

/-- Assigns a value to a name as seen from scope `i`. -/
def assign (h : Heap) (i : Nat) (x : Name) (v : Value) : Heap :=
  h.put (h.target i x) x v

/-- Makes a scope without bindings. -/
def newScope (h : Heap) (enclosing : Option Nat) : Heap :=
  ⟨h.scopes.push ⟨enclosing, []⟩⟩

/-- The scope as a text: whether it is global, and its names. -/
def describe (h : Heap) (i : Nat) : String :=
  "<" ++ (if h.isGlobal i then "global" else "local") ++ " environment [" ++
    commaSeparated (h.bindings i).names ++ "]>"

@[simp] theorem size_empty : empty.size = 0 := rfl

@[simp] theorem size_put (h : Heap) (i : Nat) (x : Name) (v : Value) :
    (h.put i x v).size = h.size := by
  simp [put, size]

@[simp] theorem size_assign (h : Heap) (i : Nat) (x : Name) (v : Value) :
    (h.assign i x v).size = h.size := size_put ..

@[simp] theorem size_newScope (h : Heap) (enclosing : Option Nat) :
    (h.newScope enclosing).size = h.size + 1 := by
  simp [newScope, size]

theorem scope?_put (h : Heap) (i j : Nat) (x : Name) (v : Value) :
    (h.put i x v).scope? j =
      if i = j then (h.scope? j).map fun s => { s with bindings := s.bindings.put x v }
      else h.scope? j := by
  simp [put, scope?, Array.getElem?_modify]

theorem scope?_newScope (h : Heap) (enclosing : Option Nat) (j : Nat) :
    (h.newScope enclosing).scope? j =
      if j = h.size then some ⟨enclosing, []⟩ else h.scope? j := by
  simp only [newScope, scope?, size, Array.getElem?_push]
  rfl

@[simp] theorem enclosing?_put (h : Heap) (i j : Nat) (x : Name) (v : Value) :
    (h.put i x v).enclosing? j = h.enclosing? j := by
  simp only [enclosing?, scope?_put]
  split
  · cases h.scope? j <;> rfl
  · rfl

theorem bindings_put_self {h : Heap} {i : Nat} (hi : i < h.size) (x : Name) (v : Value) :
    (h.put i x v).bindings i = (h.bindings i).put x v := by
  have hs : h.scope? i = some h.scopes[i] := Array.getElem?_eq_getElem hi
  simp [bindings, scope?_put, hs]

theorem bindings_put_ne {h : Heap} {i j : Nat} (hij : i ≠ j) (x : Name) (v : Value) :
    (h.put i x v).bindings j = h.bindings j := by
  simp [bindings, scope?_put, hij]

theorem chainFrom_put (h : Heap) (i : Nat) (x : Name) (v : Value) (steps : Nat)
    (j : Nat) : (h.put i x v).chainFrom steps j = h.chainFrom steps j := by
  induction steps generalizing j with
  | zero => rfl
  | succ steps ih =>
    simp only [chainFrom, scope?_put]
    by_cases hij : i = j
    · simp only [hij, if_true]
      cases h.scope? j with
      | none => rfl
      | some s => cases hs : s.enclosing <;> simp [hs, ← hij, ih]
    · simp [hij, ih]

@[simp] theorem chain_put (h : Heap) (i j : Nat) (x : Name) (v : Value) :
    (h.put i x v).chain j = h.chain j := chainFrom_put ..

end Heap

end Featherweight
