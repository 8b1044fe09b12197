import Featherweight.Proofs.Region
import Featherweight.Proofs.Walk

/-! Lookups, one scope at a time. What a name stands for is what the scope itself binds it to, or
else what it stands for in the scope around; and an assignment finds its scope in the same way. In
ordered heaps these equations hold of the walks along whole chains. -/
namespace Featherweight.Heap

section
variable {h : Heap} {i : Nat} {s : Scope} (hs : h.scope? i = some s)
include hs

theorem lt_size_of_scope? : i < h.size :=
  (Array.getElem?_eq_some_iff.1 hs).1

theorem bindings_of_scope? : h.bindings i = s.bindings := by
  simp [bindings, hs]

theorem find?_of_scope? (x : Name) : h.find? i x = s.bindings.find? x := by
  rw [find?, bindings_of_scope? hs]

end

section
variable {h : Heap} (ho : h.Ordered) {i : Nat} (hi : i < h.size) (x : Name)
include ho hi

theorem Ordered.resolve_eq : h.resolve i x =
    (h.find? i x).getD ((h.enclosing? i).elim .undefined fun j => h.resolve j x) := by
  rw [resolve, ho.chain_eq hi]
  cases hx : h.find? i x with
  | some v => simp [hx]
  | none => cases h.enclosing? i <;> simp [hx, resolve]

theorem Ordered.target_eq : h.target i x =
    if h.binds i x then i else (h.enclosing? i).elim i fun j => h.target j x := by
  cases hx : h.binds i x with
  | true => simp [target, owner?, ho.chain_eq hi, hx]
  | false =>
    rw [target, owner?, ho.chain_eq hi, ho.globalOf_eq hi]
    cases h.enclosing? i <;> simp [hx, target, owner?]

end

/-- Induction on the way outward: what holds of a scope if it holds of the scope around it, if there
is one, holds of all scopes. -/
@[elab_as_elim]
theorem Ordered.induction_outward {h : Heap} (ho : h.Ordered) {motive : Nat → Prop}
    (step : ∀ i < h.size, (∀ j, h.enclosing? i = some j → motive j) → motive i) {i : Nat}
    (hi : i < h.size) : motive i := by
  induction i using Nat.strongRecOn with
  | _ i ih =>
    refine step i hi fun j he => ?_
    have hj : j < i := ho i j he
    exact ih j hj (by omega)

section
variable {h : Heap} (ho : h.Ordered) {s : Scope} (hs : ∀ j, s.enclosing = some j → j < h.size)
  {i : Nat} (hi : i < h.size) (x : Name)
include ho hs hi

/-- A new scope makes no difference to what old ones see. -/
theorem Ordered.resolve_push : (h.push s).resolve i x = h.resolve i x := by
  refine ho.induction_outward (fun i hi ih => ?_) hi
  have hi' : i < (h.push s).size := by
    rw [size_push]
    omega
  have hne : i ≠ h.size := Nat.ne_of_lt hi
  rw [(ho.push hs).resolve_eq hi', ho.resolve_eq hi, find?, find?, bindings_push_ne hne,
    enclosing?_push_ne hne]
  cases he : h.enclosing? i with
  | none => rfl
  | some j => rw [Option.elim, Option.elim, ih j he]

theorem Ordered.target_push : (h.push s).target i x = h.target i x := by
  refine ho.induction_outward (fun i hi ih => ?_) hi
  have hi' : i < (h.push s).size := by
    rw [size_push]
    omega
  have hne : i ≠ h.size := Nat.ne_of_lt hi
  rw [(ho.push hs).target_eq hi', ho.target_eq hi, binds, binds, find?, find?,
    bindings_push_ne hne, enclosing?_push_ne hne]
  cases he : h.enclosing? i with
  | none => rfl
  | some j => rw [Option.elim, Option.elim, ih j he]

end

section
variable {h : Heap} (ho : h.Ordered) {j : Nat} (hj : j < h.size) (b : Bindings)
include ho hj

theorem Ordered.newFrame : (h.newFrame j b).Ordered :=
  ho.push fun _ he => Option.some.inj he ▸ hj

/-- In the scope of a call, its own bindings come before what is seen from the captured scope. -/
theorem Ordered.resolve_newFrame (x : Name) :
    (h.newFrame j b).resolve h.size x = (b.find? x).getD (h.resolve j x) := by
  have hsize : h.size < (h.newFrame j b).size := by
    rw [size_newFrame]
    omega
  have hold : (h.newFrame j b).resolve j x = h.resolve j x :=
    ho.resolve_push (s := ⟨some j, b⟩) (fun _ he => Option.some.inj he ▸ hj) hj x
  rw [(ho.newFrame hj b).resolve_eq hsize, find?, bindings_newFrame_self, enclosing?_newFrame_self,
    Option.elim, hold]

theorem Ordered.target_newFrame (x : Name) :
    (h.newFrame j b).target h.size x = if (b.find? x).isSome then h.size else h.target j x := by
  have hsize : h.size < (h.newFrame j b).size := by
    rw [size_newFrame]
    omega
  have hold : (h.newFrame j b).target j x = h.target j x :=
    ho.target_push (s := ⟨some j, b⟩) (fun _ he => Option.some.inj he ▸ hj) hj x
  rw [(ho.newFrame hj b).target_eq hsize, binds, find?, bindings_newFrame_self,
    enclosing?_newFrame_self, Option.elim, hold]

end

end Featherweight.Heap
