import Featherweight.Heap.Chain
import Featherweight.Proofs.Captured
import Featherweight.Proofs.OpenFrame
import Mathlib.Data.Set.Insert

/-! Parts of the heap. From a scope one gets to the scope around it and to the scopes captured in
its bindings; what is reachable from some roots is the smallest part that these links do not
leave. Whatever evaluation looks at or writes to, it finds by these links. -/
namespace Featherweight

namespace Bindings

theorem mem_of_find? {b : Bindings} {x : Name} {v : Value} (h : find? b x = some v) :
    (x, v) ∈ b := by
  induction b with
  | nil => simp [find?] at h
  | cons e b ih =>
    obtain ⟨y, w⟩ := e
    by_cases hy : y = x
    · subst hy
      simp only [find?, if_true, Option.some.injEq] at h
      exact h ▸ List.mem_cons_self ..
    · rw [find?, if_neg hy] at h
      exact List.mem_cons_of_mem _ (ih h)

theorem mem_put {b : Bindings} {x : Name} {v : Value} {e : Name × Value} (h : e ∈ b.put x v) :
    e = (x, v) ∨ e ∈ b := by
  induction b with
  | nil => exact .inl (List.mem_singleton.1 h)
  | cons d b ih =>
    obtain ⟨y, w⟩ := d
    by_cases hy : y = x
    · rw [put, if_pos hy] at h
      exact (List.mem_cons.1 h).imp_right (List.mem_cons_of_mem _)
    · rw [put, if_neg hy] at h
      rcases List.mem_cons.1 h with rfl | h
      · exact .inr (List.mem_cons_self ..)
      · exact (ih h).imp_right (List.mem_cons_of_mem _)

/-- The scope of a call binds nothing but arguments. -/
theorem snd_mem_of_mem_declareAll {ps : List Name} {vs : List Value} {e : Name × Value}
    (h : e ∈ (declareAll [] (ps.zip vs)).1) : e.2 ∈ vs := by
  obtain ⟨done, hdone, he⟩ := declareAll_prefix [] (ps.zip vs)
  rw [he, List.nil_append] at h
  exact (List.of_mem_zip (hdone.subset h)).2

end Bindings

namespace Heap

theorem put_of_size_le {h : Heap} {i : Nat} (hi : h.size ≤ i) (x : Name) (v : Value) :
    h.put i x v = h := by
  refine ext_scope? fun j => ?_
  rw [scope?_put]
  split
  · next hij => rw [← hij, scope?_eq_none_iff.2 hi, Option.map_none]
  · rfl

/-- A write adds nothing to a scope but the binding that is written. -/
theorem mem_bindings_put {h : Heap} {i j : Nat} {x : Name} {v : Value} {e : Name × Value}
    (he : e ∈ (h.put i x v).bindings j) : e = (x, v) ∨ e ∈ h.bindings j := by
  rcases Nat.lt_or_ge i h.size with hs | hs
  · by_cases hij : i = j
    · subst hij
      rw [bindings_put_self hs] at he
      exact Bindings.mem_put he
    · exact .inr (bindings_put_ne hij x v ▸ he)
  · exact .inr (put_of_size_le hs x v ▸ he)

/-- No link leads out of the part. -/
structure Closed (h : Heap) (part : Set Nat) : Prop where
  enclosing : ∀ i ∈ part, ∀ j, h.enclosing? i = some j → j ∈ part
  captured : ∀ i ∈ part, ∀ e ∈ h.bindings i, ∀ j ∈ e.2.captured, j ∈ part

/-- What one gets to from the roots: scopes around, scopes captured by closures that are bound,
and those captured by closure literals in their bodies. -/
inductive Reachable (h : Heap) (roots : List Nat) : Nat → Prop
  | root {i} : i ∈ roots → Reachable h roots i
  | enclosing {i j} : Reachable h roots i → h.enclosing? i = some j → Reachable h roots j
  | captured {i e j} : Reachable h roots i → e ∈ h.bindings i → j ∈ e.2.captured →
      Reachable h roots j

/-- All scopes reachable from the roots. -/
def reachable (h : Heap) (roots : List Nat) : Set Nat :=
  {i | h.Reachable roots i}

theorem closed_reachable (h : Heap) (roots : List Nat) : h.Closed (h.reachable roots) :=
  ⟨fun _ hi _ hj => .enclosing hi hj, fun _ hi _ he _ hj => .captured hi he hj⟩

theorem Closed.reachable_subset {h : Heap} {part : Set Nat} (hc : h.Closed part)
    {roots : List Nat} (hr : ∀ i ∈ roots, i ∈ part) : h.reachable roots ⊆ part := by
  intro i hi
  induction hi with
  | root hi => exact hr _ hi
  | enclosing _ hj ih => exact hc.enclosing _ ih _ hj
  | captured _ he hj ih => exact hc.captured _ ih _ he _ hj

section
variable {h : Heap} {part : Set Nat} (hc : h.Closed part)
include hc

theorem Closed.chainFrom {steps i : Nat} (hi : i ∈ part) :
    ∀ j ∈ h.chainFrom steps i, j ∈ part := by
  induction steps generalizing i with
  | zero => simp [Heap.chainFrom]
  | succ steps ih =>
    intro j hj
    rcases Nat.lt_or_ge i h.size with hs | hs
    · rw [chainFrom_succ h steps hs] at hj
      rcases List.mem_cons.1 hj with rfl | hj
      · exact hi
      · cases he : h.enclosing? i with
        | none => simp [he] at hj
        | some k =>
          rw [he] at hj
          exact ih (hc.enclosing i hi k he) j hj
    · rw [chainFrom_of_size_le hs] at hj
      cases hj

theorem Closed.chain {i : Nat} (hi : i ∈ part) : ∀ j ∈ h.chain i, j ∈ part :=
  hc.chainFrom hi

theorem Closed.globalOf {i : Nat} (hi : i ∈ part) : h.globalOf i ∈ part := by
  unfold Heap.globalOf
  rw [List.getLastD_eq_getLast?]
  cases hl : (h.chain i).getLast? with
  | none => exact hi
  | some j => exact hc.chain hi j (List.mem_of_getLast? hl)

/-- An assignment writes to a scope of the part. -/
theorem Closed.target {i : Nat} (hi : i ∈ part) (x : Name) : h.target i x ∈ part := by
  unfold Heap.target
  cases ho : h.owner? i x with
  | none => exact hc.globalOf hi
  | some j => exact hc.chain hi j (List.mem_of_find?_eq_some ho)

/-- What a name stands for has captured scopes of the part. -/
theorem Closed.resolve {i : Nat} (hi : i ∈ part) (x : Name) :
    ∀ j ∈ (h.resolve i x).captured, j ∈ part := by
  unfold Heap.resolve
  cases hv : (h.chain i).findSome? fun k => h.find? k x with
  | none => simp
  | some v =>
    obtain ⟨k, hk, hv⟩ := List.exists_of_findSome?_eq_some hv
    exact hc.captured k (hc.chain hi k hk) (x, v) (Bindings.mem_of_find? hv)

theorem Closed.put {v : Value} (hv : ∀ j ∈ v.captured, j ∈ part) (i : Nat) (x : Name) :
    (h.put i x v).Closed part := by
  refine ⟨fun j hj k hk => hc.enclosing j hj k (enclosing?_put h i j x v ▸ hk), ?_⟩
  intro j hj e he
  rcases mem_bindings_put he with rfl | he
  · exact hv
  · exact hc.captured j hj e he

theorem Closed.push {s : Scope} (hs : ∀ j, s.enclosing = some j → j ∈ part)
    (hb : ∀ e ∈ s.bindings, ∀ j ∈ e.2.captured, j ∈ part) :
    (h.push s).Closed (insert h.size part) := by
  constructor
  · intro i hi j hj
    by_cases hsize : i = h.size
    · rw [hsize, enclosing?_push_self] at hj
      exact .inr (hs j hj)
    · rw [enclosing?_push_ne hsize] at hj
      exact .inr (hc.enclosing i (hi.resolve_left hsize) j hj)
  · intro i hi e he j hj
    by_cases hsize : i = h.size
    · rw [hsize, bindings_push_self] at he
      exact .inr (hb e he j hj)
    · rw [bindings_push_ne hsize] at he
      exact .inr (hc.captured i (hi.resolve_left hsize) e he j hj)

end

end Heap

end Featherweight
