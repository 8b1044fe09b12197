import Featherweight.Proofs.WellFormed

/-! Lexical scoping. The scope of a call lies in the scope that the closure was made in, not in
that of the caller, so the scopes around a closure mirror the functions around the place in the
program that it comes from. -/
namespace Featherweight

/-- Where a program occurs in another: the functions around the place, innermost first, each with
its parameters and its body. -/
inductive Expr.Occurs (p : Expr) : List (List Name × Expr) → Expr → Prop
  | here : Occurs p [] p
  | child {fs e d} : Occurs p fs e → d ∈ e.children → Occurs p fs d
  | body {fs ps b} : Occurs p fs (.function ps b) → Occurs p ((ps, b) :: fs) b

/-- What occurs in a program captures nothing that the program does not. -/
theorem Expr.Occurs.captured {p d : Expr} {fs} (h : p.Occurs fs d) :
    ∀ j ∈ d.captured, j ∈ p.captured := by
  induction h with
  | here => exact fun _ hj => hj
  | child _ hd ih => exact fun j hj => ih j (Expr.captured_of_child hd hj)
  | body _ ih => exact ih

theorem Expr.Occurs.literal {p : Expr} (hp : p.ClosureFree) {fs v} (h : p.Occurs fs (.literal v)) :
    v.kind ≠ .closure := by
  intro hv
  cases v with
  | closure ps b i =>
    have hi : i ∈ p.captured := h.captured i (by simp [Expr.captured])
    rw [hp] at hi
    cases hi
  | _ => cases hv

namespace Heap

/-- A scope at the same depth as a place inside some functions: the scope binds the parameters of
the innermost function first, and the scope around it goes with the other functions. Outside of
all functions there is the global scope. -/
inductive Nested (h : Heap) : List (List Name × Expr) → Nat → Prop
  | global : 0 < h.size → h.enclosing? 0 = none → Nested h [] 0
  | inside {f fs i j} : h.enclosing? i = some j → f.1 <+: (h.bindings i).names → Nested h fs j →
      Nested h (f :: fs) i

theorem Grows.nested {h h' : Heap} (g : h.Grows h') {fs i} (hn : h.Nested fs i) :
    h'.Nested fs i := by
  induction hn with
  | global hs he => exact .global (g.lt_size hs) (g.enclosing 0 hs ▸ he)
  | @inside f fs i j he hf _ ih =>
    -- New names come last, so the parameters stay first.
    have hi : i < h.size := lt_size_of_enclosing? he
    exact .inside (g.enclosing i hi ▸ he) (hf.trans (g.names i hi)) ih

/-- The chain of a nested scope has one scope for each function, and the global one at its end. -/
theorem Nested.chain {h : Heap} (ho : h.Ordered) {fs i} (hn : h.Nested fs i) :
    ∃ scopes, h.chain i = scopes ++ [0] ∧ h.isGlobal 0 = true ∧
      List.Forall₂ (fun j f => h.isGlobal j = false ∧ f.1 <+: (h.bindings j).names) scopes fs := by
  induction hn with
  | global hs he => exact ⟨[], by simp [ho.chain_eq hs, he], by simp [isGlobal, he], .nil⟩
  | @inside f fs i j he hf _ ih =>
    obtain ⟨scopes, hchain, hglobal, hall⟩ := ih
    refine ⟨i :: scopes, ?_, hglobal, .cons ⟨by simp [isGlobal, he], hf⟩ hall⟩
    rw [ho.chain_eq (lt_size_of_enclosing? he), he, Option.elim, hchain, List.cons_append]

end Heap

/-- When all parameters of a call are declared, they are the names of its scope. -/
theorem Bindings.names_declareAll {ps : List Name} {vs : List Value} (hl : vs.length = ps.length)
    (h : (declareAll [] (ps.zip vs)).2 = none) :
    names (declareAll [] (ps.zip vs)).1 = ps := by
  rw [declareAll_complete h, List.nil_append, names]
  exact List.map_fst_zip (Nat.le_of_eq hl.symm)

namespace Invariant

/-- Closures come from functions of the program, and were made in scopes nested like the places
of these functions. -/
def FromProgram (p : Expr) (h : Heap) (v : Value) : Prop :=
  ∀ ps b i, v = .closure ps b i → ∃ fs, p.Occurs fs (.function ps b) ∧ h.Nested fs i

/-- Runs in which all closures come from a program, and parts of it are evaluated only in scopes
nested like their places. -/
def lexical (p : Expr) : Invariant where
  Good s := ∀ i, ∀ e ∈ s.heap.bindings i, FromProgram p s.heap e.2
  Later := State.Grows
  Programs s i e := ∃ fs, p.Occurs fs e ∧ s.heap.Nested fs i
  Values s v := FromProgram p s.heap v

theorem FromProgram.grows {p : Expr} {h h' : Heap} (g : h.Grows h') {v : Value}
    (hv : FromProgram p h v) : FromProgram p h' v := by
  intro ps b i hc
  obtain ⟨fs, ho, hn⟩ := hv ps b i hc
  exact ⟨fs, ho, g.nested hn⟩

theorem FromProgram.of_kind {p : Expr} {h : Heap} {v : Value} (hv : v.kind ≠ .closure) :
    FromProgram p h v := by
  intro ps b i hc
  exact absurd (by rw [hc]; rfl) hv

theorem fromProgram_resolve {p : Expr} {h : Heap}
    (hs : ∀ i, ∀ e ∈ h.bindings i, FromProgram p h e.2) (i : Nat) (x : Name) :
    FromProgram p h (h.resolve i x) := by
  unfold Heap.resolve
  cases hv : (h.chain i).findSome? fun k => h.find? k x with
  | none => exact .of_kind (by simp [Value.kind])
  | some v =>
    obtain ⟨k, -, hk⟩ := List.exists_of_findSome?_eq_some hv
    exact hs k (x, v) (Bindings.mem_of_find? hk)

/-- Writing a value that comes from the program. -/
theorem lexical_put {p : Expr} {s : State} {v : Value} (hs : (lexical p).Good s)
    (hv : FromProgram p s.heap v) (i : Nat) (x : Name) :
    (lexical p).Step s { s with heap := s.heap.put i x v } := by
  have g : s.heap.Grows (s.heap.put i x v) := .put ..
  refine ⟨.of_heap g, fun j e he => ?_⟩
  rcases Heap.mem_bindings_put he with rfl | he
  · exact hv.grows g
  · exact (hs j e he).grows g

/-- The scope of a call is nested in the functions around the closure's place and the closure's
own function: its parent is the captured scope, wherever the call comes from. -/
theorem nested_newFrame {h : Heap} {fs i ps b} {vs : List Value} (hn : h.Nested fs i)
    (hl : vs.length = ps.length) (hnew : (Bindings.declareAll [] (ps.zip vs)).2 = none) :
    (h.newFrame i (Bindings.declareAll [] (ps.zip vs)).1).Nested ((ps, b) :: fs) h.size := by
  refine .inside (Heap.enclosing?_newFrame_self ..) ?_ (Heap.Grows.nested (.newFrame ..) hn)
  simp [Bindings.names_declareAll hl hnew]

theorem sound_lexical {p : Expr} (hp : p.ClosureFree) : (lexical p).Sound where
  refl := State.Grows.refl
  trans := State.Grows.trans
  programs_later := by
    intro s t i e g h
    obtain ⟨fs, ho, hn⟩ := h
    exact ⟨fs, ho, g.heap.nested hn⟩
  values_later g h := h.grows g.heap
  children := by
    intro s i e d h hd
    obtain ⟨fs, ho, hn⟩ := h
    exact ⟨fs, ho.child hd, hn⟩
  literal := by
    intro s i v h
    obtain ⟨fs, ho, -⟩ := h
    exact .of_kind (ho.literal hp)
  plain _ _ hv := .of_kind hv
  function := by
    intro s i ps b h ps' b' i' hc
    cases hc
    exact h
  resolve hs _ := fromProgram_resolve hs _ _
  printed hs text := ⟨⟨.refl _, text, rfl⟩, hs⟩
  declared hs _ hv _ := lexical_put hs hv _ _
  assigned hs _ hv := lexical_put hs hv _ _
  opened := by
    intro s ps b i vs new hs hc hvs hl hnew
    subst hnew
    obtain ⟨fs, ho, hn⟩ := hc ps b i rfl
    have g : s.heap.Grows (s.heap.newFrame i (Bindings.declareAll [] (ps.zip vs)).1) := .newFrame ..
    refine ⟨⟨.of_heap g, fun j e he => ?_⟩, fun hnone => ⟨_, ho.body, nested_newFrame hn hl hnone⟩⟩
    by_cases hj : j = s.heap.size
    · -- The new scope: it binds arguments, or those before a name that occurs twice.
      rw [hj, Heap.bindings_newFrame_self] at he
      exact (hvs e.2 (Bindings.snd_mem_of_mem_declareAll he)).grows g
    · rw [Heap.bindings_newFrame_ne hj] at he
      exact (hs j e he).grows g

/-- A program starts lexically scoped in a fresh global scope. -/
theorem lexical_fresh (p : Expr) (out : String) :
    (lexical p).Good ⟨.fresh, out⟩ ∧ (lexical p).Programs ⟨.fresh, out⟩ 0 p := by
  refine ⟨fun i e he => ?_, [], .here, .global Nat.one_pos rfl⟩
  rw [Heap.bindings_fresh] at he
  cases he

end Invariant

open Invariant in
/-- After the evaluation of a program without closure literals in a fresh global scope, however
it ends, every closure comes from a function of the program, and the chain of its scope matches
the functions around the place of that function, innermost first: each scope binds the
parameters of its function first, and the global scope comes where there is no function left. -/
theorem Expr.evaluates_lexical {p : Expr} {out : String} {r : Except Failure Value} {t : State}
    (hp : p.ClosureFree) (he : p.Evaluates 0 ⟨.fresh, out⟩ (r, t)) {ps : List Name} {b : Expr}
    {i : Nat} (hc : r = .ok (.closure ps b i) ∨
      ∃ j x, (x, .closure ps b i) ∈ t.heap.bindings j) :
    ∃ fs, p.Occurs fs (.function ps b) ∧
      (∃ scopes, t.heap.chain i = scopes ++ [0] ∧ t.heap.isGlobal 0 = true ∧
        List.Forall₂ (fun j f => t.heap.isGlobal j = false ∧ f.1 <+: (t.heap.bindings j).names)
          scopes fs) ∧
      (t.heap.chain i).length = fs.length + 1 := by
  have hroots : ∀ j ∈ p.roots 0, j < Heap.fresh.size := by
    rw [Expr.roots, hp]
    decide
  have hwell := (Heap.wellFormed_fresh.evaluates hroots he).2.1
  obtain ⟨hgood, hstart⟩ := lexical_fresh p out
  obtain ⟨⟨-, hend⟩, hv⟩ := (sound_lexical hp).evaluates hgood hstart he
  have hclosure : FromProgram p t.heap (.closure ps b i) := by
    rcases hc with hr | ⟨j, x, hx⟩
    · exact hv _ hr
    · exact hend j _ hx
  obtain ⟨fs, hoccurs, hnested⟩ := hclosure ps b i rfl
  obtain ⟨scopes, hchain, hglobal, hall⟩ := hnested.chain hwell.ordered
  refine ⟨fs, hoccurs, ⟨scopes, hchain, hglobal, hall⟩, ?_⟩
  rw [hchain, List.length_append, hall.length_eq, List.length_singleton]

/-- A function that is called at once and gives a function. -/
def Expr.curried : Expr :=
  .call (.function ["x"] (.function ["y"] (.binary .add (.var "x") (.var "y")))) [.int 1]

theorem curried_lexical :
    ∃ b t, Expr.curried.Evaluates 0 ⟨.fresh, ""⟩ (.ok (.closure ["y"] b 1), t) ∧
      ∃ fs, Expr.curried.Occurs fs (.function ["y"] b) ∧ fs.length = 1 := by
  have he : Expr.curried.Evaluates 0 ⟨.fresh, ""⟩ (.ok (.closure ["y"] _ 1), _) := ⟨5, rfl⟩
  obtain ⟨fs, hoccurs, -, hlength⟩ := Expr.evaluates_lexical (by decide) he (.inl rfl)
  exact ⟨_, _, he, fs, hoccurs, (Nat.succ.inj hlength).symm⟩

end Featherweight
