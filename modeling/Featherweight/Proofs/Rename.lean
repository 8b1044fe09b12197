import Featherweight.Error
import Featherweight.Heap.Chain
import Featherweight.Proofs.Captured
import Featherweight.Proofs.OpenFrame
import Featherweight.Proofs.Simulation

/-! Programs, values and heaps with other names. Every name is replaced, be it read, declared,
assigned to, bound or a parameter. When no two names become one, a heap with other names finds,
binds and writes as the heap did before. -/
namespace Featherweight

mutual

/-- The value with `r` applied to the parameters of a closure and to the names in its body. -/
def Value.rename (r : Name → Name) : Value → Value
  | .closure params body i => .closure (params.map r) (body.rename r) i
  | v => v

/-- The program with `r` applied to all names, those in closure literals included. -/
def Expr.rename (r : Name → Name) : Expr → Expr
  | .literal v => .literal (v.rename r)
  | .var x => .var (r x)
  | .print e => .print (e.rename r)
  | .binary op l r' => .binary op (l.rename r) (r'.rename r)
  | .cond c t e => .cond (c.rename r) (t.rename r) (e.rename r)
  | .loop c b => .loop (c.rename r) (b.rename r)
  | .seq a b => .seq (a.rename r) (b.rename r)
  | .declare x e => .declare (r x) (e.rename r)
  | .assign x e => .assign (r x) (e.rename r)
  | .function params body => .function (params.map r) (body.rename r)
  | .call f args => .call (f.rename r) (Expr.renameAll r args)

/-- Several programs with `r` applied to all names. -/
def Expr.renameAll (r : Name → Name) : List Expr → List Expr
  | [] => []
  | e :: es => e.rename r :: Expr.renameAll r es

end

theorem Expr.renameAll_eq_map (r : Name → Name) (es : List Expr) :
    renameAll r es = es.map (rename r) := by
  induction es with
  | nil => rfl
  | cons e es ih => rw [renameAll, ih, List.map_cons]

namespace Value

theorem rename_of_kind {v : Value} (h : v.kind ≠ .closure) (r : Name → Name) :
    v.rename r = v := by
  cases v with
  | closure => exact absurd rfl h
  | _ => rfl

theorem alike_rename (r : Name → Name) (v : Value) : v.Alike (v.rename r) := by
  cases v with
  | closure params body i => exact .closure _ _ _ _ (List.length_map r).symm
  | _ => constructor

/-- Names do not decide whether a value can be written: closures always can. -/
theorem isWritable_rename (r : Name → Name) (v : Value) :
    (v.rename r).isWritable = v.isWritable := by
  cases v <;> rfl

end Value

/-- A node is alike to the same node with other names. -/
theorem Expr.alike_rename (r : Name → Name) {e : Expr} {part : Expr → Expr → Prop}
    {value : Value → Value → Prop} (hp : ∀ d ∈ e.children, part d (d.rename r))
    (hv : ∀ v, e = .literal v → value v (v.rename r)) : e.Alike part value (e.rename r) := by
  cases e with
  | literal v => exact .literal (hv v rfl)
  | call f args =>
    rw [rename, renameAll_eq_map]
    refine .call (hp f (List.mem_cons_self ..)) ?_
    rw [List.forall₂_map_right_iff, List.forall₂_same]
    intro a ha
    exact hp a (List.mem_cons_of_mem _ ha)
  | _ => constructor <;> exact hp _ (by simp [children])

namespace Bindings

/-- Bindings with `r` applied to the bound names and to those in the values. -/
def rename (r : Name → Name) (b : Bindings) : Bindings :=
  b.map fun e => (r e.1, e.2.rename r)

@[simp] theorem rename_nil (r : Name → Name) : rename r [] = [] := rfl

@[simp] theorem rename_cons (r : Name → Name) (x : Name) (v : Value) (b : Bindings) :
    rename r ((x, v) :: b) = (r x, v.rename r) :: rename r b := rfl

@[simp] theorem rename_append (r : Name → Name) (b c : Bindings) :
    rename r (b ++ c) = rename r b ++ rename r c := by
  simp [rename]

@[simp] theorem names_rename (r : Name → Name) (b : Bindings) :
    names (b.rename r) = (names b).map r := by
  simp [names, rename]

theorem zip_rename (r : Name → Name) (ps : List Name) (vs : List Value) :
    (ps.map r).zip (vs.map (Value.rename r)) = rename r (ps.zip vs) :=
  List.zip_map

section
variable {r : Name → Name} (hr : Function.Injective r)
include hr

theorem find?_rename (b : Bindings) (x : Name) :
    find? (b.rename r) (r x) = (find? b x).map (Value.rename r) := by
  induction b with
  | nil => rfl
  | cons e b ih =>
    obtain ⟨y, v⟩ := e
    rw [rename_cons, find?, find?]
    by_cases hy : y = x
    · rw [if_pos hy, if_pos (congrArg r hy), Option.map_some]
    · rw [if_neg hy, if_neg (hr.ne hy), ih]

theorem put_rename (b : Bindings) (x : Name) (v : Value) :
    (b.rename r).put (r x) (v.rename r) = (b.put x v).rename r := by
  induction b with
  | nil => rfl
  | cons e b ih =>
    obtain ⟨y, w⟩ := e
    rw [rename_cons, put, put]
    by_cases hy : y = x
    · rw [if_pos hy, if_pos (congrArg r hy), rename_cons]
    · rw [if_neg hy, if_neg (hr.ne hy), rename_cons, ih]

/-- The declarations stop at the same place, if they do. -/
theorem declareAll_rename (old new : Bindings) :
    declareAll (old.rename r) (new.rename r) =
      ((declareAll old new).1.rename r, (declareAll old new).2.map r) := by
  induction new generalizing old with
  | nil => rfl
  | cons e new ih =>
    obtain ⟨x, v⟩ := e
    have hmem : r x ∈ names (old.rename r) ↔ x ∈ names old := by
      rw [names_rename, List.mem_map_of_injective hr]
    rw [rename_cons, declareAll, declareAll]
    by_cases hx : x ∈ names old
    · rw [if_pos hx, if_pos (hmem.2 hx), Option.map_some]
    · rw [if_neg hx, if_neg (mt hmem.1 hx), ← ih, rename_append, rename_cons, rename_nil]

end

end Bindings

/-- The scope with other names in its bindings. It stays where it is. -/
def Scope.rename (r : Name → Name) (s : Scope) : Scope :=
  ⟨s.enclosing, s.bindings.rename r⟩

namespace Heap

/-- The heap with `r` applied to all names, bound ones and those in closures. -/
def rename (r : Name → Name) (h : Heap) : Heap :=
  ⟨h.scopes.map (Scope.rename r)⟩

section
variable (r : Name → Name) (h : Heap)

@[simp] theorem size_rename : (h.rename r).size = h.size := by
  simp [rename, size]

theorem scope?_rename (i : Nat) : (h.rename r).scope? i = (h.scope? i).map (Scope.rename r) := by
  simp [rename, scope?]

theorem bindings_rename (i : Nat) : (h.rename r).bindings i = (h.bindings i).rename r := by
  unfold bindings
  rw [scope?_rename]
  cases h.scope? i <;> rfl

theorem enclosing?_rename (i : Nat) : (h.rename r).enclosing? i = h.enclosing? i := by
  rw [enclosing?, enclosing?, scope?_rename]
  cases h.scope? i <;> rfl

/-- Links do not depend on names. -/
theorem chain_rename (i : Nat) : (h.rename r).chain i = h.chain i :=
  chain_congr (h.size_rename r) (h.enclosing?_rename r) i

theorem newFrame_rename (i : Nat) (b : Bindings) :
    (h.rename r).newFrame i (b.rename r) = (h.newFrame i b).rename r := by
  simp [rename, newFrame, Scope.rename]

end

section
variable {r : Name → Name} (hr : Function.Injective r) (h : Heap)
include hr

theorem find?_rename (i : Nat) (x : Name) :
    (h.rename r).find? i (r x) = (h.find? i x).map (Value.rename r) := by
  rw [find?, bindings_rename, Bindings.find?_rename hr, find?]

theorem binds_rename (i : Nat) (x : Name) : (h.rename r).binds i (r x) = h.binds i x := by
  rw [binds, find?_rename hr, Option.isSome_map, binds]

theorem target_rename (i : Nat) (x : Name) : (h.rename r).target i (r x) = h.target i x := by
  simp only [target, owner?, globalOf, chain_rename, binds_rename hr]

theorem resolve_rename (i : Nat) (x : Name) :
    (h.rename r).resolve i (r x) = (h.resolve i x).rename r := by
  unfold resolve
  rw [chain_rename]
  induction h.chain i with
  | nil => rfl
  | cons j js ih =>
    rw [List.findSome?_cons, List.findSome?_cons, find?_rename hr]
    cases h.find? j x with
    | none => exact ih
    | some v => rfl

theorem put_rename (i : Nat) (x : Name) (v : Value) :
    (h.rename r).put i (r x) (v.rename r) = (h.put i x v).rename r := by
  refine ext_scope? fun j => ?_
  rw [scope?_rename, scope?_put, scope?_put, scope?_rename]
  by_cases hij : i = j
  · rw [if_pos hij, if_pos hij, Option.map_map, Option.map_map]
    congr 1
    funext s
    simp [Scope.rename, Bindings.put_rename hr]
  · rw [if_neg hij, if_neg hij]

theorem assign_rename (i : Nat) (x : Name) (v : Value) :
    (h.rename r).assign i (r x) (v.rename r) = (h.assign i x v).rename r := by
  rw [assign, target_rename hr, put_rename hr, assign]

end

end Heap

end Featherweight
