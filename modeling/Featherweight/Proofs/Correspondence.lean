import Featherweight.Proofs.Region
import Featherweight.Proofs.Renumber
import Featherweight.Proofs.Walk
import Mathlib.Data.List.Find
import Mathlib.Data.Set.Function

/-! Parts of two heaps that differ in nothing but the numbers of their scopes. What names stand
for, where they are assigned, and what is reachable is then the same up to these numbers, and
writes and new scopes on both sides keep it so. -/
namespace Featherweight.Heap

/-- `f` pairs the scopes of two parts, one to one. Paired scopes lie in paired scopes, and bind
the same names in the same order to values that differ in the numbers of scopes only. -/
structure Corresponds (f : Nat → Nat) (h : Heap) (part : Set Nat) (h' : Heap)
    (part' : Set Nat) : Prop where
  bijOn : Set.BijOn f part part'
  scopes : ∀ i ∈ part, h'.scope? (f i) = (h.scope? i).map (Scope.renumber f)

section
variable {f : Nat → Nat} {h h' : Heap} {part part' : Set Nat}
  (hf : h.Corresponds f part h' part')
include hf

theorem Corresponds.lt_size {i : Nat} (hi : i ∈ part) (hs : i < h.size) : f i < h'.size := by
  by_contra hge
  have hle : h'.size ≤ f i := by omega
  have hnone := hf.scopes i hi
  rw [scope?_eq_none_iff.2 hle, eq_comm, Option.map_eq_none_iff, scope?_eq_none_iff] at hnone
  omega

theorem Corresponds.enclosing? {i : Nat} (hi : i ∈ part) :
    h'.enclosing? (f i) = (h.enclosing? i).map f := by
  unfold Heap.enclosing?
  rw [hf.scopes i hi]
  cases h.scope? i <;> rfl

theorem Corresponds.bindings {i : Nat} (hi : i ∈ part) :
    h'.bindings (f i) = (h.bindings i).renumber f := by
  unfold Heap.bindings
  rw [hf.scopes i hi]
  cases h.scope? i <;> rfl

theorem Corresponds.find? {i : Nat} (hi : i ∈ part) (x : Name) :
    h'.find? (f i) x = (h.find? i x).map (Value.renumber f) := by
  unfold Heap.find?
  rw [hf.bindings hi, Bindings.find?_renumber]

theorem Corresponds.binds {i : Nat} (hi : i ∈ part) (x : Name) :
    h'.binds (f i) x = h.binds i x := by
  unfold Heap.binds
  rw [hf.find? hi, Option.isSome_map]

theorem Corresponds.chainFrom (hc : h.Closed part) {steps i : Nat} (hi : i ∈ part) :
    h'.chainFrom steps (f i) = (h.chainFrom steps i).map f := by
  induction steps generalizing i with
  | zero => rfl
  | succ steps ih =>
    rw [Heap.chainFrom, Heap.chainFrom, hf.scopes i hi]
    cases hs : h.scope? i with
    | none => rfl
    | some s =>
      cases he : s.enclosing with
      | none => simp [Scope.renumber, he]
      | some j =>
        have hj : j ∈ part := hc.enclosing i hi j (by simp [Heap.enclosing?, hs, he])
        simp [Scope.renumber, he, ih hj]

/-- The chains of paired scopes are paired, although the bounds on their lengths differ. -/
theorem Corresponds.chain (hc : h.Closed part) (ho : h.Ordered) (ho' : h'.Ordered) {i : Nat}
    (hi : i ∈ part) : h'.chain (f i) = (h.chain i).map f := by
  -- Enough steps for both, so that one number of steps serves in both heaps.
  have hfrom : h'.chainFrom (i + f i + 1) (f i) = (h.chainFrom (i + f i + 1) i).map f :=
    hf.chainFrom hc hi
  rwa [ho.chainFrom_eq_chain (by omega), ho'.chainFrom_eq_chain (by omega)] at hfrom

section
variable (hc : h.Closed part) (ho : h.Ordered) (ho' : h'.Ordered) {i : Nat} (hi : i ∈ part)
include hc ho ho' hi

theorem Corresponds.globalOf : h'.globalOf (f i) = f (h.globalOf i) := by
  unfold Heap.globalOf
  rw [hf.chain hc ho ho' hi, List.getLastD_map]

theorem Corresponds.owner? (x : Name) : h'.owner? (f i) x = (h.owner? i x).map f := by
  unfold Heap.owner?
  rw [hf.chain hc ho ho' hi, List.find?_map]
  congr 1
  exact List.find?_congr fun j hj => hf.binds (hc.chain hi j hj) x

theorem Corresponds.target (x : Name) : h'.target (f i) x = f (h.target i x) := by
  unfold Heap.target
  rw [hf.owner? hc ho ho' hi, hf.globalOf hc ho ho' hi]
  cases h.owner? i x <;> rfl

theorem Corresponds.resolve (x : Name) :
    h'.resolve (f i) x = (h.resolve i x).renumber f := by
  rw [resolve_eq_owner?, resolve_eq_owner?, hf.owner? hc ho ho' hi]
  cases hx : h.owner? i x with
  | none => rfl
  | some j =>
    have hj : j ∈ part := hc.chain hi j (List.mem_of_find?_eq_some hx)
    simp only [Option.map_some, Option.bind_some, hf.find? hj]
    cases h.find? j x <;> rfl

end

theorem Corresponds.put {i : Nat} (hi : i ∈ part) (x : Name) (v : Value) :
    (h.put i x v).Corresponds f part (h'.put (f i) x (v.renumber f)) part' := by
  refine ⟨hf.bijOn, fun j hj => ?_⟩
  rw [scope?_put, scope?_put, hf.scopes j hj]
  by_cases hij : i = j
  · rw [if_pos hij, if_pos (congrArg f hij), Option.map_map, Option.map_map]
    congr 1
    funext s
    simp [Scope.renumber, Bindings.put_renumber]
  · rw [if_neg hij, if_neg fun hfij => hij (hf.bijOn.injOn hi hj hfij)]

/-- Two new scopes are paired by a function that takes the one's number to the other's. -/
theorem Corresponds.push (hs' : ∀ i ∈ part', i < h'.size) (hnew : f h.size = h'.size) (s : Scope) :
    (h.push s).Corresponds f (insert h.size part) (h'.push (s.renumber f))
      (insert h'.size part') := by
  constructor
  · rw [← hnew]
    refine hf.bijOn.insert fun hmem => ?_
    exact Nat.lt_irrefl _ (hnew ▸ hs' _ hmem)
  · intro j hj
    rw [scope?_push, scope?_push]
    by_cases hjs : j = h.size
    · rw [if_pos hjs, if_pos (by rw [hjs, hnew])]
      rfl
    · have hjp : j ∈ part := hj.resolve_left hjs
      have hjs' : f j ≠ h'.size := Nat.ne_of_lt (hs' _ (hf.bijOn.mapsTo hjp))
      rw [if_neg hjs, if_neg hjs', hf.scopes j hjp]

theorem Corresponds.congr (hc : h.Closed part) {g : Nat → Nat} (hg : ∀ i ∈ part, f i = g i) :
    h.Corresponds g part h' part' := by
  refine ⟨hf.bijOn.congr hg, fun i hi => ?_⟩
  rw [← hg i hi, hf.scopes i hi]
  cases hs : h.scope? i with
  | none => rfl
  | some s =>
    have he : s.enclosing.map f = s.enclosing.map g := by
      refine Option.map_congr fun j hj => hg j (hc.enclosing i hi j ?_)
      rw [Heap.enclosing?, hs]
      exact hj
    have hb : s.bindings.renumber f = s.bindings.renumber g := by
      refine Bindings.renumber_congr fun e he j hj => hg j (hc.captured i hi e ?_ j hj)
      rw [Heap.bindings, hs]
      exact he
    simp [Scope.renumber, he, hb]

section
variable (hc : h.Closed part) {roots : List Nat} (hr : ∀ i ∈ roots, i ∈ part)
include hc hr

theorem Corresponds.reachable_of_reachable {i : Nat} (hi : i ∈ h.reachable roots) :
    f i ∈ h'.reachable (roots.map f) := by
  have hpart := hc.reachable_subset hr
  induction hi with
  | root hi => exact .root (List.mem_map_of_mem hi)
  | @enclosing i j hi hj ih =>
    refine .enclosing ih ?_
    rw [hf.enclosing? (hpart hi), hj, Option.map_some]
  | @captured i e j hi he hj ih =>
    refine .captured (e := (e.1, e.2.renumber f)) ih ?_ ?_
    · rw [hf.bindings (hpart hi)]
      exact List.mem_map_of_mem he
    · rw [Value.captured_renumber]
      exact List.mem_map_of_mem hj

theorem Corresponds.exists_reachable {k : Nat} (hk : k ∈ h'.reachable (roots.map f)) :
    ∃ i ∈ h.reachable roots, f i = k := by
  have hpart := hc.reachable_subset hr
  induction hk with
  | root hk =>
    obtain ⟨i, hi, rfl⟩ := List.mem_map.1 hk
    exact ⟨i, .root hi, rfl⟩
  | enclosing _ hj ih =>
    obtain ⟨i, hi, rfl⟩ := ih
    rw [hf.enclosing? (hpart hi), Option.map_eq_some_iff] at hj
    obtain ⟨j, hlink, rfl⟩ := hj
    exact ⟨j, .enclosing hi hlink, rfl⟩
  | captured _ he hj ih =>
    obtain ⟨i, hi, rfl⟩ := ih
    rw [hf.bindings (hpart hi)] at he
    obtain ⟨e, hmem, rfl⟩ := List.mem_map.1 he
    rw [Value.captured_renumber] at hj
    obtain ⟨j, hcaptured, rfl⟩ := List.mem_map.1 hj
    exact ⟨j, .captured hi hmem hcaptured, rfl⟩

/-- What is reachable from paired roots is paired. -/
theorem Corresponds.reachable :
    h.Corresponds f (h.reachable roots) h' (h'.reachable (roots.map f)) where
  bijOn := by
    have hpart := hc.reachable_subset hr
    refine ⟨fun i hi => hf.reachable_of_reachable hc hr hi, hf.bijOn.injOn.mono hpart, ?_⟩
    exact fun k hk => hf.exists_reachable hc hr hk
  scopes i hi := hf.scopes i (hc.reachable_subset hr hi)

end

end

end Featherweight.Heap
