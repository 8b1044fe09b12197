import Featherweight.Eval.Basic

/-! The scope of a call. Its names are declared one after another, so a name that occurs twice
stops in the middle; what is there then is a scope with the bindings before it. -/
namespace Featherweight

namespace Bindings

/-- Declares `new` in order after `old`, up to the first name that is bound by then. -/
def declareAll (old : Bindings) : Bindings → Bindings × Option Name
  | [] => (old, none)
  | (x, v) :: new => if x ∈ names old then (old, some x) else declareAll (old ++ [(x, v)]) new

@[simp] theorem names_append (b c : Bindings) : names (b ++ c) = names b ++ names c := by
  simp [names]

theorem declareAll_prefix (old new : Bindings) :
    ∃ done, done <+: new ∧ (declareAll old new).1 = old ++ done := by
  induction new generalizing old with
  | nil => exact ⟨[], List.prefix_rfl, by simp [declareAll]⟩
  | cons e new ih =>
    obtain ⟨x, v⟩ := e
    by_cases hx : x ∈ names old
    · exact ⟨[], List.nil_prefix, by simp [declareAll, hx]⟩
    · obtain ⟨done, hd, he⟩ := ih (old ++ [(x, v)])
      refine ⟨(x, v) :: done, (List.prefix_cons_inj _).2 hd, ?_⟩
      rw [declareAll, if_neg hx, he, List.append_assoc, List.singleton_append]

/-- When no name stops it, everything is declared. -/
theorem declareAll_complete {old new : Bindings} (h : (declareAll old new).2 = none) :
    (declareAll old new).1 = old ++ new := by
  induction new generalizing old with
  | nil => simp [declareAll]
  | cons e new ih =>
    obtain ⟨x, v⟩ := e
    by_cases hx : x ∈ names old
    · simp [declareAll, hx] at h
    · rw [declareAll, if_neg hx] at h ⊢
      rw [ih h, List.append_assoc, List.singleton_append]

/-- A name that is not bound yet may be bound last. -/
theorem nodup_snoc {b : Bindings} (h : (names b).Nodup) {x : Name} (hx : x ∉ names b) (v : Value) :
    (names (b ++ [(x, v)])).Nodup := by
  rw [names_append, List.nodup_append]
  refine ⟨h, by simp [names], ?_⟩
  intro y hy z hz hyz
  obtain rfl : z = x := List.mem_singleton.1 hz
  exact hx (hyz ▸ hy)

theorem nodup_declareAll {old : Bindings} (h : (names old).Nodup) (new : Bindings) :
    (names (declareAll old new).1).Nodup := by
  induction new generalizing old with
  | nil => exact h
  | cons e new ih =>
    obtain ⟨x, v⟩ := e
    by_cases hx : x ∈ names old
    · simpa [declareAll, hx] using h
    · rw [declareAll, if_neg hx]
      exact ih (nodup_snoc h hx v)

theorem nodup_declareAll_nil (new : Bindings) : (names (declareAll [] new).1).Nodup :=
  @nodup_declareAll [] List.nodup_nil new

end Bindings

namespace Heap

/-- Makes a scope. -/
def push (h : Heap) (s : Scope) : Heap :=
  ⟨h.scopes.push s⟩

/-- Makes a scope inside another one, with bindings. -/
def newFrame (h : Heap) (enclosing : Nat) (b : Bindings) : Heap :=
  ⟨h.scopes.push ⟨some enclosing, b⟩⟩

/-- Heaps with the same scopes are equal. -/
theorem ext_scope? {h h' : Heap} (hs : ∀ j, h.scope? j = h'.scope? j) : h = h' := by
  obtain ⟨scopes⟩ := h
  obtain ⟨scopes'⟩ := h'
  exact congrArg mk (Array.ext_getElem? hs)

@[simp] theorem size_push (h : Heap) (s : Scope) : (h.push s).size = h.size + 1 := by
  simp [push, size]

theorem scope?_push (h : Heap) (s : Scope) (j : Nat) :
    (h.push s).scope? j = if j = h.size then some s else h.scope? j := by
  simp only [push, scope?, size, Array.getElem?_push]
  rfl

@[simp] theorem enclosing?_push_self (h : Heap) (s : Scope) :
    (h.push s).enclosing? h.size = s.enclosing := by
  simp [enclosing?, scope?_push]

theorem enclosing?_push_ne {h : Heap} {j : Nat} (hj : j ≠ h.size) (s : Scope) :
    (h.push s).enclosing? j = h.enclosing? j := by
  simp [enclosing?, scope?_push, hj]

@[simp] theorem bindings_push_self (h : Heap) (s : Scope) :
    (h.push s).bindings h.size = s.bindings := by
  simp [bindings, scope?_push]

theorem bindings_push_ne {h : Heap} {j : Nat} (hj : j ≠ h.size) (s : Scope) :
    (h.push s).bindings j = h.bindings j := by
  simp [bindings, scope?_push, hj]

theorem newScope_eq_newFrame (h : Heap) (enclosing : Nat) :
    h.newScope (some enclosing) = h.newFrame enclosing [] := rfl

@[simp] theorem size_newFrame (h : Heap) (enclosing : Nat) (b : Bindings) :
    (h.newFrame enclosing b).size = h.size + 1 := h.size_push _

theorem scope?_newFrame (h : Heap) (enclosing : Nat) (b : Bindings) (j : Nat) :
    (h.newFrame enclosing b).scope? j =
      if j = h.size then some ⟨some enclosing, b⟩ else h.scope? j := h.scope?_push _ j

@[simp] theorem enclosing?_newFrame_self (h : Heap) (enclosing : Nat) (b : Bindings) :
    (h.newFrame enclosing b).enclosing? h.size = some enclosing := h.enclosing?_push_self _

theorem enclosing?_newFrame_ne {h : Heap} {j : Nat} (hj : j ≠ h.size) (enclosing : Nat)
    (b : Bindings) : (h.newFrame enclosing b).enclosing? j = h.enclosing? j :=
  enclosing?_push_ne hj _

@[simp] theorem bindings_newFrame_self (h : Heap) (enclosing : Nat) (b : Bindings) :
    (h.newFrame enclosing b).bindings h.size = b := h.bindings_push_self _

theorem bindings_newFrame_ne {h : Heap} {j : Nat} (hj : j ≠ h.size) (enclosing : Nat)
    (b : Bindings) : (h.newFrame enclosing b).bindings j = h.bindings j :=
  bindings_push_ne hj _

theorem put_newFrame (h : Heap) (enclosing : Nat) (b : Bindings) (x : Name) (v : Value) :
    (h.newFrame enclosing b).put h.size x v = h.newFrame enclosing (b.put x v) := by
  refine ext_scope? fun j => ?_
  rw [scope?_put, scope?_newFrame, scope?_newFrame]
  by_cases hj : j = h.size
  · simp [hj]
  · simp [hj, Ne.symm hj]

end Heap

namespace Action

/-- Makes a scope inside another one and declares names in it. -/
def openFrame (captured : Nat) (b : Bindings) : Action Nat := do
  let frame ← newScope (some captured)
  declareAll frame b
  pure frame

theorem enter_eq (eval : Nat → Expr → Action Value) (params : List Name) (body : Expr)
    (captured : Nat) (arguments : List Value) :
    enter eval params body captured arguments =
      openFrame captured (params.zip arguments) >>= fun frame => eval frame body := by
  simp only [enter, openFrame, bind_assoc, pure_bind]

theorem declareAll_newFrame (h : Heap) (enclosing : Nat) (old new : Bindings) (out : String) :
    declareAll h.size new ⟨h.newFrame enclosing old, out⟩ =
      some ((old.declareAll new).2.elim (.ok ()) fun x => .error (.error (.duplicate x) none),
        ⟨h.newFrame enclosing (old.declareAll new).1, out⟩) := by
  -- On the names that are left; `old` are the bindings that the scope has by then.
  induction new generalizing old with
  | nil => rfl
  | cons e new ih =>
    obtain ⟨x, v⟩ := e
    rw [declareAll, bind_apply, Bindings.declareAll]
    have hb : (h.newFrame enclosing old).binds h.size x = decide (x ∈ old.names) := by
      rw [Heap.binds, Heap.find?, Heap.bindings_newFrame_self, Bool.eq_iff_iff,
        Bindings.find?_isSome_iff, decide_eq_true_iff]
    by_cases hx : x ∈ old.names
    · simp [declare, hb, hx]
    · simp only [declare, hb, hx, decide_false, Bool.false_eq_true, if_false, Heap.put_newFrame,
        Bindings.put_of_notMem hx]
      exact ih _

/-- What opening the scope of a call does: the names that can be declared are in the new scope,
and the first that cannot is the failure, which no node is attached to. -/
theorem openFrame_apply (captured : Nat) (b : Bindings) (s : State) :
    openFrame captured b s =
      some ((Bindings.declareAll [] b).2.elim (.ok s.heap.size)
          fun x => .error (.error (.duplicate x) none),
        { s with heap := s.heap.newFrame captured (Bindings.declareAll [] b).1 }) := by
  rw [openFrame, bind_apply, newScope]
  simp only [bind_apply, Heap.newScope_eq_newFrame, declareAll_newFrame, pure_apply]
  cases (Bindings.declareAll [] b).2 <;> rfl

end Action

end Featherweight
