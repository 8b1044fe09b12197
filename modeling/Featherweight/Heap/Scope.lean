import Featherweight.Expr.Basic

/-! One scope: a link to the scope around it and its own bindings, in order of creation. -/
namespace Featherweight

/-- Names with their values, the oldest binding first. -/
abbrev Bindings := List (Name × Value)

namespace Bindings

/-- The value bound to a name. -/
def find? : Bindings → Name → Option Value
  | [], _ => none
  | (y, v) :: rest, x => if y = x then some v else find? rest x

/-- Binds a name: a bound one keeps its place, a new one comes last. -/
def put (x : Name) (v : Value) : Bindings → Bindings
  | [] => [(x, v)]
  | (y, w) :: rest => if y = x then (x, v) :: rest else (y, w) :: put x v rest

def names (b : Bindings) : List Name :=
  b.map Prod.fst

theorem find?_isSome_iff {b : Bindings} {x : Name} : (find? b x).isSome ↔ x ∈ names b := by
  induction b with
  | nil => simp [find?, names]
  | cons e b ih =>
    obtain ⟨y, w⟩ := e
    by_cases h : y = x
    · simp [find?, names, h]
    · simpa [find?, names, h, Ne.symm h] using ih

theorem find?_eq_none_iff {b : Bindings} {x : Name} : find? b x = none ↔ x ∉ names b := by
  rw [← find?_isSome_iff]
  cases find? b x <;> simp

theorem find?_put (x y : Name) (v : Value) (b : Bindings) :
    find? (put x v b) y = if x = y then some v else find? b y := by
  induction b with
  | nil => simp [put, find?]
  | cons e b ih =>
    obtain ⟨z, w⟩ := e
    by_cases hz : z = x
    · subst hz
      by_cases hy : z = y <;> simp [put, find?, hy]
    · by_cases hzy : z = y
      · subst hzy
        simp [put, find?, hz, Ne.symm hz]
      · simp [put, find?, hz, hzy, ih]

theorem put_of_notMem {b : Bindings} {x : Name} (h : x ∉ names b) (v : Value) :
    put x v b = b ++ [(x, v)] := by
  induction b with
  | nil => rfl
  | cons e b ih =>
    obtain ⟨y, w⟩ := e
    simp only [names, List.map_cons, List.mem_cons, not_or] at h
    simp [put, Ne.symm h.1, ih h.2]

theorem names_put_of_mem {b : Bindings} {x : Name} (h : x ∈ names b) (v : Value) :
    names (put x v b) = names b := by
  induction b with
  | nil => simp [names] at h
  | cons e b ih =>
    obtain ⟨y, w⟩ := e
    by_cases hy : y = x
    · simp [put, names, hy]
    · have hx : x ∈ names b := by simpa [names, Ne.symm hy] using h
      simpa [put, names, hy] using ih hx

theorem put_put (x : Name) (v w : Value) (b : Bindings) : put x w (put x v b) = put x w b := by
  induction b with
  | nil => simp [put]
  | cons e b ih =>
    obtain ⟨y, u⟩ := e
    by_cases hy : y = x <;> simp [put, hy, ih]

end Bindings

/-- A scope. The link to the scope around it never changes; a global scope has none. -/
structure Scope where
  enclosing : Option Nat
  bindings : Bindings

end Featherweight
