import Featherweight.Heap.Basic

/-! Scope chains. When every scope is newer than the scope around it, a chain is the scope itself
followed by the chain of the scope around it, and it ends in a global scope. -/
namespace Featherweight.Heap

/-- Every scope is newer than the scope around it. -/
def Ordered (h : Heap) : Prop :=
  ∀ i j, h.enclosing? i = some j → j < i

theorem lt_size_of_enclosing? {h : Heap} {i j : Nat} (hj : h.enclosing? i = some j) :
    i < h.size := by
  simp only [enclosing?, scope?, Option.bind_eq_some_iff] at hj
  obtain ⟨_, hs, _⟩ := hj
  exact (Array.getElem?_eq_some_iff.1 hs).1

theorem scope?_eq_none_iff {h : Heap} {i : Nat} : h.scope? i = none ↔ h.size ≤ i :=
  Array.getElem?_eq_none_iff

theorem chainFrom_succ (h : Heap) (steps : Nat) {i : Nat} (hi : i < h.size) :
    h.chainFrom (steps + 1) i = i :: (h.enclosing? i).elim [] (h.chainFrom steps) := by
  cases hs : h.scope? i with
  | none => exact absurd (scope?_eq_none_iff.1 hs) (Nat.not_le.2 hi)
  | some s => cases he : s.enclosing <;> simp [chainFrom, enclosing?, hs, he]

theorem chainFrom_of_size_le {h : Heap} {i : Nat} (hi : h.size ≤ i) (steps : Nat) :
    h.chainFrom steps i = [] := by
  cases steps with
  | zero => rfl
  | succ steps => simp [chainFrom, scope?_eq_none_iff.2 hi]

theorem chain_of_size_le {h : Heap} {i : Nat} (hi : h.size ≤ i) : h.chain i = [] :=
  chainFrom_of_size_le hi _

/-- Chains are made of links and nothing else. -/
theorem chain_congr {h h' : Heap} (hsize : h'.size = h.size)
    (hlinks : ∀ i, h'.enclosing? i = h.enclosing? i) (i : Nat) : h'.chain i = h.chain i := by
  have hsteps : ∀ steps i, h'.chainFrom steps i = h.chainFrom steps i := by
    intro steps
    induction steps with
    | zero => exact fun _ => rfl
    | succ steps ih =>
      intro i
      rcases Nat.lt_or_ge i h.size with hi | hi
      · have hi' : i < h'.size := hsize ▸ hi
        rw [chainFrom_succ h steps hi, chainFrom_succ h' steps hi', hlinks]
        cases h.enclosing? i with
        | none => rfl
        | some j => exact congrArg (i :: ·) (ih j)
      · rw [chainFrom_of_size_le hi, chainFrom_of_size_le (hsize ▸ hi)]
  exact hsteps (i + 1) i

/-- More steps than there are scopes on the way change nothing. -/
theorem Ordered.chainFrom_eq_chain {h : Heap} (ho : h.Ordered) {steps : Nat} {i : Nat}
    (hi : i < steps) : h.chainFrom steps i = h.chain i := by
  induction steps using Nat.strongRecOn generalizing i with
  | _ steps ih =>
    rcases Nat.lt_or_ge i h.size with hs | hs
    · obtain ⟨steps, rfl⟩ := Nat.exists_eq_succ_of_ne_zero (Nat.ne_zero_of_lt hi)
      rw [chain, chainFrom_succ h steps hs, chainFrom_succ h i hs]
      cases he : h.enclosing? i with
      | none => rfl
      | some j =>
        have hj := ho i j he
        simp only [Option.elim]
        rw [ih steps (Nat.lt_succ_self _) (by omega)]
        rcases Nat.lt_or_ge i steps with h' | h'
        · rw [ih i (by omega) hj]
        · have : i = steps := by omega
          rw [this, ih steps (Nat.lt_succ_self _) (by omega)]
    · rw [chain_of_size_le hs, chainFrom_of_size_le hs]

theorem Ordered.chain_eq {h : Heap} (ho : h.Ordered) {i : Nat} (hi : i < h.size) :
    h.chain i = i :: (h.enclosing? i).elim [] h.chain := by
  rw [chain, chainFrom_succ h i hi]
  cases he : h.enclosing? i with
  | none => rfl
  | some j => exact congrArg (i :: ·) (ho.chainFrom_eq_chain (ho i j he))

theorem Ordered.empty : Heap.empty.Ordered := by
  intro i j h
  simp [enclosing?, scope?, Heap.empty] at h

theorem Ordered.put {h : Heap} (ho : h.Ordered) (i : Nat) (x : Name) (v : Value) :
    (h.put i x v).Ordered := by
  intro j k hk
  rw [enclosing?_put] at hk
  exact ho j k hk

theorem Ordered.newScope {h : Heap} (ho : h.Ordered) {enclosing : Option Nat}
    (he : ∀ j, enclosing = some j → j < h.size) : (h.newScope enclosing).Ordered := by
  intro i j hj
  simp only [enclosing?, scope?_newScope] at hj
  split at hj
  · next hi => exact hi ▸ he j (by simpa using hj)
  · exact ho i j hj

end Featherweight.Heap
