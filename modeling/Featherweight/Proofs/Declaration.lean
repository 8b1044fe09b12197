import Featherweight.Proofs.Assignment

/-! What a declaration does. It binds the name in the very scope that it is made in, behind the
other names there, and fails only where that scope binds the name already. A scope in the middle of
others may come to hide a binding further out: the scopes that come to it first see the new value,
and their assignments go to it from then on. -/
namespace Featherweight

namespace Heap
variable {h : Heap} {i : Nat} {x : Name} {v : Value} {node : Option Expr} {out : String}

theorem declare_of_mem (hx : x ∈ (h.bindings i).names) :
    Action.declare i x v node ⟨h, out⟩ = some (.error (.error (.duplicate x) node), ⟨h, out⟩) := by
  have hbinds : h.binds i x = true := binds_iff.2 hx
  simp [Action.declare, hbinds]

theorem declare_of_notMem (hx : x ∉ (h.bindings i).names) :
    Action.declare i x v node ⟨h, out⟩ = some (.ok (), ⟨h.put i x v, out⟩) := by
  have hbinds : h.binds i x = false := by simpa [← binds_iff] using hx
  simp [Action.declare, hbinds]

/-- There is one way for a declaration to fail. -/
theorem declare_fails_iff {f : Failure} {t : State} :
    Action.declare i x v node ⟨h, out⟩ = some (.error f, t) ↔
      x ∈ (h.bindings i).names ∧ f = .error (.duplicate x) node ∧ t = ⟨h, out⟩ := by
  by_cases hx : x ∈ (h.bindings i).names
  · rw [declare_of_mem hx]
    constructor
    · intro hsome
      cases hsome
      exact ⟨hx, rfl, rfl⟩
    · intro hend
      rw [hend.2.1, hend.2.2]
  · rw [declare_of_notMem hx]
    constructor
    · intro hsome
      cases hsome
    · intro hend
      exact absurd hend.1 hx

section
variable (hi : i < h.size)
include hi

/-- What is written from a scope that sees the written binding replaces that binding. -/
theorem Exposes.assign_put {j : Nat} (hj : h.Exposes j x i) (v w : Value) :
    (h.put i x v).assign j x w = (h.put i x v).put i x w := by
  rw [assign, target, hj.owner?_put hi v, Option.getD_some]

theorem bindings_put_of_notMem (hx : x ∉ (h.bindings i).names) (v : Value) :
    (h.put i x v).bindings i = h.bindings i ++ [(x, v)] := by
  rw [bindings_put_self hi, Bindings.put_of_notMem hx]

/-- A second write to a name is as if it had been the first. -/
theorem bindings_put_put_of_notMem (hx : x ∉ (h.bindings i).names) (v w : Value) :
    ((h.put i x v).put i x w).bindings i = h.bindings i ++ [(x, w)] := by
  rw [put_put, bindings_put_of_notMem hi hx]

end

/-- A declaration fails exactly where the scope itself binds the name, with an error about that
name, and leaves all as it is then. Otherwise it changes this one scope, in which the name comes
last; and all scopes, wherever they are in the heap, see the value if they come to that scope before
they find the name, and otherwise what they saw. An assignment to the name from a scope that sees
the value replaces it where it was declared, and changes nothing else. -/
theorem declare_effect {h : Heap} {i : Nat} (hi : i < h.size) (x : Name) (v : Value)
    (node : Option Expr) (out : String) :
    (∀ f t, Action.declare i x v node ⟨h, out⟩ = some (.error f, t) ↔
      x ∈ (h.bindings i).names ∧ f = .error (.duplicate x) node ∧ t = ⟨h, out⟩) ∧
    (x ∉ (h.bindings i).names → ∃ h',
      Action.declare i x v node ⟨h, out⟩ = some (.ok (), ⟨h', out⟩) ∧
      h.Writes i x v h' ∧ h'.bindings i = h.bindings i ++ [(x, v)] ∧
      ∀ j, h.Exposes j x i → ∀ w, h'.Writes i x w (h'.assign j x w) ∧
        (h'.assign j x w).bindings i = h.bindings i ++ [(x, w)]) := by
  constructor
  · intro f t
    exact declare_fails_iff
  · intro hx
    have hlast := bindings_put_of_notMem hi hx v
    refine ⟨h.put i x v, declare_of_notMem hx, writes_put hi x v, hlast, ?_⟩
    intro j hj w
    have hi' : i < (h.put i x v).size := by rwa [size_put]
    rw [hj.assign_put hi v w]
    exact ⟨writes_put hi' x w, bindings_put_put_of_notMem hi hx v w⟩

/-- A counter that is being called: inside its scope there is a scope without bindings. -/
def counterCalled : Heap :=
  counter.newFrame 1 []

/-- In the scope of the counter its number cannot be declared again. The name of the counter itself
can; from then on the scope of the call sees and writes the new binding, and the global scope keeps
the counter. -/
theorem declare_in_counter :
    Action.declare 1 "n" (.int 7) none ⟨counterCalled, ""⟩ =
      some (.error (.error (.duplicate "n") none), ⟨counterCalled, ""⟩) ∧
    ∃ h', Action.declare 1 "next" (.int 5) none ⟨counterCalled, ""⟩ = some (.ok (), ⟨h', ""⟩) ∧
      h'.bindings 1 = [("n", .int 0), ("next", .int 5)] ∧
      h'.resolve 2 "next" = .int 5 ∧ h'.resolve 0 "next" = counterCalled.resolve 0 "next" ∧
      (h'.assign 2 "next" (.int 6)).bindings 1 = [("n", .int 0), ("next", .int 6)] := by
  constructor
  · obtain ⟨hfails, -⟩ := declare_effect (h := counterCalled) (i := 1) (by decide) "n" (.int 7)
      none ""
    exact (hfails _ _).2 ⟨by decide, rfl, rfl⟩
  · obtain ⟨-, hdeclares⟩ := declare_effect (h := counterCalled) (i := 1) (by decide) "next"
      (.int 5) none ""
    obtain ⟨h', hdeclare, hwrites, hlast, hassign⟩ := hdeclares (by decide)
    have hexposes : counterCalled.Exposes 2 "next" 1 := ⟨[2], [0], rfl, by decide⟩
    have hhidden : ¬ counterCalled.Exposes 0 "next" 1 := by
      intro ⟨before, after, hchain, _⟩
      have hmem : 1 ∈ counterCalled.chain 0 := by simp [hchain]
      exact absurd hmem (by decide)
    have hkept := hwrites.unseen 0 "next" fun hseen => hhidden hseen.2
    have hassigned := (hassign 2 hexposes (.int 6)).2
    exact ⟨h', hdeclare, hlast, hwrites.seen 2 hexposes, hkept, hassigned⟩

end Heap

end Featherweight
