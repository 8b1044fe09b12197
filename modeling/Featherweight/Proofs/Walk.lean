import Featherweight.Heap.Chain

/-! Walks outward. A walk has no bound on its steps: it goes from a scope to the scope around it
until it finds what it looks for or passes a global scope. Where scopes enclose newer ones only,
every walk ends, and it ends where the chain says. -/
namespace Featherweight.Heap

/-- A walk outward from a scope that ends at the first scope with `stop`, or with none. -/
inductive Walk (h : Heap) (stop : Nat → Bool) : Nat → Option Nat → Prop
  | found {i} : stop i = true → Walk h stop i (some i)
  | last {i} : stop i = false → h.enclosing? i = none → Walk h stop i none
  | outward {i j o} : stop i = false → h.enclosing? i = some j → Walk h stop j o → Walk h stop i o

theorem Ordered.walk {h : Heap} (ho : h.Ordered) (stop : Nat → Bool) {i : Nat} (hi : i < h.size) :
    h.Walk stop i ((h.chain i).find? stop) := by
  induction i using Nat.strongRecOn with
  | _ i ih =>
    rw [ho.chain_eq hi]
    cases hs : stop i with
    | true =>
      rw [List.find?_cons_of_pos hs]
      exact .found hs
    | false =>
      rw [List.find?_cons_of_neg (by simp [hs])]
      cases he : h.enclosing? i with
      | none => exact .last hs he
      | some j =>
        have hj : j < i := ho i j he
        exact .outward hs he (ih j hj (by omega))

theorem Ordered.chain_ne_nil {h : Heap} (ho : h.Ordered) {i : Nat} (hi : i < h.size) :
    h.chain i ≠ [] := by
  rw [ho.chain_eq hi]
  exact List.cons_ne_nil _ _

theorem Ordered.globalOf_eq {h : Heap} (ho : h.Ordered) {i : Nat} (hi : i < h.size) :
    h.globalOf i = (h.enclosing? i).elim i h.globalOf := by
  rw [globalOf, ho.chain_eq hi]
  cases he : h.enclosing? i with
  | none => rfl
  | some j =>
    have hj : j < i := ho i j he
    have hne := ho.chain_ne_nil (show j < h.size by omega)
    simp only [Option.elim, globalOf, List.getLastD_cons]
    rw [List.getLastD_eq_getLast?, List.getLastD_eq_getLast?, List.getLast?_eq_some_getLast hne]
    rfl

/-- The only global scope on a chain is the last. -/
theorem Ordered.find?_isGlobal {h : Heap} (ho : h.Ordered) {i : Nat} (hi : i < h.size) :
    (h.chain i).find? h.isGlobal = some (h.globalOf i) := by
  induction i using Nat.strongRecOn with
  | _ i ih =>
    rw [ho.chain_eq hi, ho.globalOf_eq hi]
    cases he : h.enclosing? i with
    | none => exact List.find?_cons_of_pos (by simp [isGlobal, he])
    | some j =>
      -- A scope inside another is not global, so the search goes on where the chain does.
      have hj : j < i := ho i j he
      rw [List.find?_cons_of_neg (by simp [isGlobal, he])]
      exact ih j hj (by omega)

theorem resolve_eq_owner? (h : Heap) (i : Nat) (x : Name) :
    h.resolve i x = ((h.owner? i x).bind fun j => h.find? j x).getD .undefined := by
  rw [resolve, owner?]
  congr 1
  induction h.chain i with
  | nil => rfl
  | cons j js ih =>
    cases hv : h.find? j x with
    | none => simpa [hv, binds] using ih
    | some v => simp [hv, binds]

/-- All walks that names need come to an end: that for a value, that for the scope to assign in,
and that to the global scope. They give what the heap answers. -/
structure Walkable (h : Heap) : Prop where
  resolve : ∀ i < h.size, ∀ x, ∃ o, h.Walk (fun j => h.binds j x) i o ∧
    h.resolve i x = (o.bind fun j => h.find? j x).getD .undefined
  target : ∀ i < h.size, ∀ x, ∃ o, h.Walk (fun j => h.binds j x) i o ∧
    h.target i x = o.getD (h.globalOf i)
  globalOf : ∀ i < h.size, h.Walk h.isGlobal i (some (h.globalOf i))

theorem Ordered.walkable {h : Heap} (ho : h.Ordered) : h.Walkable where
  resolve i hi x := ⟨h.owner? i x, ho.walk _ hi, resolve_eq_owner? h i x⟩
  target i hi x := ⟨h.owner? i x, ho.walk _ hi, rfl⟩
  globalOf i hi := by
    rw [← ho.find?_isGlobal hi]
    exact ho.walk _ hi

end Featherweight.Heap
