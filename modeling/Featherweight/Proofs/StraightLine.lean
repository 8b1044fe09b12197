import Featherweight.Proofs.Assignment
import Featherweight.Proofs.Names
import Featherweight.Proofs.Nodes
import Featherweight.Proofs.Task

/-! Straight-line code: no loop and no call outside of functions. Its evaluation follows the program
and so comes to a result. What each declaration, assignment and line of output keeps, it keeps. -/
namespace Featherweight

/-! ## Actions that come to a result -/

namespace Action

/-- The action comes to a result, in a state as `S` says, and an answer is as `A` says. -/
def Settles {α : Type} (m : Nat → Action α) (s : State) (S : State → Prop) (A : α → Prop) : Prop :=
  ∃ r t, EndsIn m s (r, t) ∧ S t ∧ ∀ a, r = .ok a → A a

section
variable {α β : Type} {S : State → Prop} {A : α → Prop} {B : β → Prop} {s : State}

theorem Settles.answer {m : Nat → Action α} {a : α} {t : State} (h : EndsIn m s (.ok a, t))
    (ht : S t) (ha : A a) : Settles m s S A := by
  refine ⟨.ok a, t, h, ht, fun b hb => ?_⟩
  cases hb
  exact ha

theorem Settles.failure {m : Nat → Action α} {f : Failure} {t : State}
    (h : EndsIn m s (.error f, t)) (ht : S t) : Settles m s S A :=
  ⟨.error f, t, h, ht, nofun⟩

theorem settles_pure {a : α} (hs : S s) (ha : A a) : Settles (fun _ => pure a) s S A :=
  .answer (endsIn_of_action.2 (pure_apply a s)) hs ha

theorem settles_fail (hs : S s) (cause : Cause) (node : Option Expr) :
    Settles (fun _ => fail cause node) s S A :=
  .failure (endsIn_of_action.2 rfl) hs

theorem settles_printLine (hs : S s)
    (h : ∀ text, S { s with stdout := s.stdout ++ text }) (v : Value) :
    Settles (fun _ => printLine v) s S fun _ => True := by
  cases htext : v.text? with
  | none =>
    have hends : printLine v s = some (.error .digitLimit, s) := by
      simp only [printLine, htext]
    exact .failure (endsIn_of_action.2 hends) hs
  | some text =>
    have hends : printLine v s =
        some (.ok (), { s with stdout := s.stdout ++ (text ++ "\n") }) := by
      simp only [printLine, htext, String.append_assoc]
    exact .answer (endsIn_of_action.2 hends) (h (text ++ "\n")) trivial

theorem settles_declare {i : Nat} {x : Name} {v : Value} (hs : S s)
    (h : S { s with heap := s.heap.put i x v }) (node : Option Expr) :
    Settles (fun _ => declare i x v node) s S fun _ => True := by
  cases hb : s.heap.binds i x with
  | true =>
    have hends : declare i x v node s = some (.error (.error (.duplicate x) node), s) := by
      simp only [declare, hb, if_true]
    exact .failure (endsIn_of_action.2 hends) hs
  | false =>
    have hends : declare i x v node s = some (.ok (), { s with heap := s.heap.put i x v }) := by
      simp only [declare, hb, Bool.false_eq_true, if_false]
    exact .answer (endsIn_of_action.2 hends) h trivial

theorem settles_assign {i : Nat} {x : Name} {v : Value}
    (h : S { s with heap := s.heap.assign i x v }) :
    Settles (fun _ => assign i x v) s S fun _ => True :=
  .answer (endsIn_of_action.2 rfl) h trivial

/-- Two actions in order, of which the second settles wherever the first may leave it. -/
theorem Settles.bind {m : Nat → Action α} {f : Nat → α → Action β} (hm : Steady m)
    (hf : ∀ a, Steady fun fuel => f fuel a) (hfirst : Settles m s S A)
    (hsecond : ∀ a t, S t → A a → Settles (fun fuel => f fuel a) t S B) :
    Settles (fun fuel => m fuel >>= f fuel) s S B := by
  obtain ⟨r, t, hends, ht, ha⟩ := hfirst
  cases r with
  | error e => exact .failure ((endsIn_bind hm hf).2 (.inl ⟨e, rfl, hends⟩)) ht
  | ok a =>
    obtain ⟨r, u, hends', hu, hb⟩ := hsecond a t ht (ha a rfl)
    exact ⟨r, u, hends.bind hm hf hends', hu, hb⟩

end

end Action

open Featherweight.Action

namespace Expr

/-! ## Straight-line code -/

/-- Outside of functions a program has nothing but itself and what its parts have. -/
theorem Occurs.eq_or_child {p d : Expr} (h : p.Occurs [] d) :
    d = p ∨ ∃ c ∈ p.children, c.Occurs [] d := by
  generalize hfs : [] = fs at h
  induction h with
  | here => exact .inl rfl
  | child _ hd ih =>
    rcases ih hfs with rfl | ⟨c, hc, ho⟩
    · exact .inr ⟨_, hd, hfs ▸ .here⟩
    · exact .inr ⟨c, hc, ho.child hd⟩
  | body => cases hfs

/-- Code without loops and calls, but for those in the bodies of functions. -/
structure StraightLine (p : Expr) : Prop where
  loop : ∀ c b, ¬ p.Occurs [] (.loop c b)
  call : ∀ f args, ¬ p.Occurs [] (.call f args)

/-- Code that does not print, declare or assign, but for the bodies of functions. -/
structure ReadOnly (p : Expr) : Prop where
  print : ∀ e, ¬ p.Occurs [] (.print e)
  declare : ∀ x e, ¬ p.Occurs [] (.declare x e)
  assign : ∀ x e, ¬ p.Occurs [] (.assign x e)

/-- A node that is neither, over parts that are straight-line code. -/
theorem StraightLine.of_children {p : Expr} (hloop : ∀ c b, p ≠ .loop c b)
    (hcall : ∀ f args, p ≠ .call f args) (h : ∀ d ∈ p.children, d.StraightLine) :
    p.StraightLine where
  loop c b ho := by
    rcases ho.eq_or_child with hp | ⟨d, hd, ho⟩
    · exact hloop c b hp.symm
    · exact (h d hd).loop c b ho
  call f args ho := by
    rcases ho.eq_or_child with hp | ⟨d, hd, ho⟩
    · exact hcall f args hp.symm
    · exact (h d hd).call f args ho

/-! ## What single actions keep -/

/-- What single actions of the code `p` in scope `i` keep: the states are as `S` says, as long as
the values are as `A` says. -/
structure Keeps (p : Expr) (i : Nat) (S : State → Prop) (A : Value → Prop) : Prop where
  plain : ∀ {v}, v.kind ≠ .closure → A v
  literal : ∀ {v}, p.Occurs [] (.literal v) → A v
  function : ∀ {ps b}, p.Occurs [] (.function ps b) → A (.closure ps b i)
  resolve : ∀ {s}, S s → ∀ x, A (s.heap.resolve i x)
  printed : ∀ {s e}, S s → p.Occurs [] (.print e) → ∀ text, S { s with stdout := s.stdout ++ text }
  declared : ∀ {s x e v}, S s → p.Occurs [] (.declare x e) → A v →
    S { s with heap := s.heap.put i x v }
  assigned : ∀ {s x e v}, S s → p.Occurs [] (.assign x e) → A v →
    S { s with heap := s.heap.assign i x v }

section
variable {p : Expr} {i : Nat} {S : State → Prop} {A : Value → Prop}

/-- A node settles if it does with fuel left for its parts. -/
theorem settles_of_succ {e : Expr} {s : State}
    (h : Settles (fun fuel => e.eval (fuel + 1) i) s S A) :
    Settles (fun fuel => e.eval fuel i) s S A := by
  obtain ⟨r, t, hends, hr⟩ := h
  exact ⟨r, t, evaluates_iff_endsIn.2 hends, hr⟩

/-- Straight-line code comes to a result, and each of its parts does. -/
theorem Keeps.settles (hk : p.Keeps i S A) (hp : p.StraightLine) (e : Expr) (ho : p.Occurs [] e)
    {s : State} (hs : S s) : Settles (fun fuel => e.eval fuel i) s S A := by
  induction e using induction_children generalizing s with
  | h e ih _ =>
    have part : ∀ d ∈ e.children, ∀ {s}, S s → Settles (fun fuel => d.eval fuel i) s S A :=
      fun d hd s hs => ih d hd (ho.child hd) hs
    cases e with
    | literal v => exact .answer (evaluates_literal v i s) hs (hk.literal ho)
    | var x => exact .answer (evaluates_var x i s) hs (hk.resolve hs x)
    | function ps b => exact .answer (evaluates_function ps b i s) hs (hk.function ho)
    | print e =>
      have he := part e (by simp [children]) hs
      refine settles_of_succ (he.bind (e.steady_eval i) (fun _ => .of_action _) fun v t ht hv => ?_)
      have hprint := settles_printLine ht (hk.printed ht ho) v
      exact hprint.bind (.of_action _) (fun _ => .of_action _) fun _ u hu _ => settles_pure hu hv
    | binary op l r =>
      have hl := part l (by simp [children]) hs
      refine settles_of_succ (hl.bind (l.steady_eval i) ?_ fun v t ht _ => ?_)
      · exact fun _ _ _ h => (r.steady_eval i h).bind fun w => .refl _
      have hr := part r (by simp [children]) ht
      refine hr.bind (r.steady_eval i) (fun _ => .of_action _) fun w u hu _ => ?_
      cases happly : op.apply v w with
      | ok x => exact settles_pure hu (hk.plain (Operator.kind_of_apply happly))
      | error cause => exact settles_fail hu cause _
    | cond c a b =>
      have hc := part c (by simp [children]) hs
      refine settles_of_succ (hc.bind (c.steady_eval i) (steady_branch a b _ i) fun v t ht _ => ?_)
      cases v with
      | bool w =>
        cases w with
        | true => exact part a (by simp [children]) ht
        | false => exact part b (by simp [children]) ht
      | _ => exact settles_fail ht _ _
    | seq a b =>
      have ha := part a (by simp [children]) hs
      refine settles_of_succ (ha.bind (a.steady_eval i) (fun _ => b.steady_eval i) ?_)
      exact fun _ t ht _ => part b (by simp [children]) ht
    | declare x e =>
      have he := part e (by simp [children]) hs
      refine settles_of_succ (he.bind (e.steady_eval i) (fun _ => .of_action _) fun v t ht hv => ?_)
      have hdeclare := settles_declare ht (hk.declared ht ho hv) (some (.declare x e))
      have hundefined : A .undefined := hk.plain (by simp [Value.kind])
      exact hdeclare.bind (.of_action _) (fun _ => .of_action _) fun _ u hu _ =>
        settles_pure hu hundefined
    | assign x e =>
      have he := part e (by simp [children]) hs
      refine settles_of_succ (he.bind (e.steady_eval i) (fun _ => .of_action _) fun v t ht hv => ?_)
      have hassign := settles_assign (hk.assigned ht ho hv)
      exact hassign.bind (.of_action _) (fun _ => .of_action _) fun _ u hu _ => settles_pure hu hv
    | loop c b => exact absurd ho (hp.loop c b)
    | call f args => exact absurd ho (hp.call f args)

/-- The result that evaluation of a part has is the one that it settles in. -/
theorem Keeps.evaluates (hk : p.Keeps i S A) (hp : p.StraightLine) {e : Expr} (ho : p.Occurs [] e)
    {s t : State} {r : Except Failure Value} (hs : S s) (he : e.Evaluates i s (r, t)) :
    S t ∧ ∀ v, r = .ok v → A v := by
  obtain ⟨r', t', he', ht, hv⟩ := hk.settles hp e ho hs
  cases Evaluates.unique he he'
  exact ⟨ht, hv⟩

/-- The parts that evaluation starts next are parts of the same code, in the same scope. -/
theorem Keeps.starts (hk : p.Keeps i S A) (hp : p.StraightLine) {e d : Expr} {j : Nat}
    {s t : State} (ho : p.Occurs [] e) (hs : S s) (h : Task.Starts ⟨i, e, s⟩ ⟨j, d, t⟩) :
    j = i ∧ p.Occurs [] d ∧ S t := by
  cases h with
  | first hd => exact ⟨rfl, ho.child (hd ▸ List.mem_cons_self ..), hs⟩
  | right hl =>
    obtain ⟨ht, -⟩ := hk.evaluates hp (ho.child (by simp [children])) hs hl
    exact ⟨rfl, ho.child (by simp [children]), ht⟩
  | branch v hc =>
    obtain ⟨ht, -⟩ := hk.evaluates hp (ho.child (by simp [children])) hs hc
    exact ⟨rfl, ho.child (by cases v <;> simp [children]), ht⟩
  | second ha =>
    obtain ⟨ht, -⟩ := hk.evaluates hp (ho.child (by simp [children])) hs ha
    exact ⟨rfl, ho.child (by simp [children]), ht⟩
  | round | again => exact absurd ho (hp.loop _ _)
  | argument | body => exact absurd ho (hp.call _ _)

theorem Keeps.reaches (hk : p.Keeps i S A) (hp : p.StraightLine) {s : State} (hs : S s)
    {part : Task} (h : Task.Reaches ⟨i, p, s⟩ part) :
    part.scope = i ∧ p.Occurs [] part.program ∧ S part.state := by
  induction h with
  | refl => exact ⟨rfl, .here, hs⟩
  | tail _ hstart ih =>
    obtain ⟨hscope, ho, ht⟩ := ih
    subst hscope
    exact hk.starts hp ho ht hstart

theorem Keeps.passes (hk : p.Keeps i S A) (hp : p.StraightLine) {s t : State} (hs : S s)
    (h : Task.Passes ⟨i, p, s⟩ t) : S t := by
  obtain ⟨part, hreach, hstate⟩ := h
  obtain ⟨hscope, ho, hpart⟩ := hk.reaches hp hs hreach
  subst hscope
  rcases hstate with rfl | ⟨r, he⟩
  · exact hpart
  · exact (hk.evaluates hp ho hpart he).1

end

end Expr

/-! ## Edits of the heap -/

namespace Heap

/-- The values that straight-line code `p` can store or come to in scope `i`: those without a scope,
those that some scope binds before, literals of the code, and its functions, which capture `i`. -/
inductive Supplies (h : Heap) (i : Nat) (p : Expr) : Value → Prop
  | plain {v} : v.kind ≠ .closure → Supplies h i p v
  | held {j x v} : (x, v) ∈ h.bindings j → Supplies h i p v
  | literal {v} : p.Occurs [] (.literal v) → Supplies h i p v
  | function {ps b} : p.Occurs [] (.function ps b) → Supplies h i p (.closure ps b i)

/-- What straight-line code `p` in scope `i` of `h` may do to the heap: it makes no scope and links
none, and it changes only scopes on the chain of `i`. -/
structure Edits (h : Heap) (i : Nat) (p : Expr) (h' : Heap) : Prop where
  size : h'.size = h.size
  enclosing : ∀ j, h'.enclosing? j = h.enclosing? j
  outside : ∀ j, j ∉ h.chain i → h'.scope? j = h.scope? j
  stored : ∀ j, ∀ e ∈ h'.bindings j, h.Supplies i p e.2

section
variable {h h' : Heap} {i : Nat} {p : Expr}

theorem Edits.refl (h : Heap) (i : Nat) (p : Expr) : h.Edits i p h where
  size := rfl
  enclosing _ := rfl
  outside _ _ := rfl
  stored _ _ he := .held he

theorem Edits.put (hd : h.Edits i p h') {j : Nat} (hj : j ∈ h.chain i) {v : Value}
    (hv : h.Supplies i p v) (x : Name) : h.Edits i p (h'.put j x v) where
  size := by rw [size_put, hd.size]
  enclosing k := by rw [enclosing?_put, hd.enclosing]
  outside k hk := by
    have hjk : j ≠ k := fun hjk => hk (hjk ▸ hj)
    rw [scope?_put, if_neg hjk, hd.outside k hk]
  stored k e he := by
    rcases mem_bindings_put he with rfl | he
    · exact hv
    · exact hd.stored k e he

theorem Ordered.self_mem_chain (ho : h.Ordered) (hi : i < h.size) : i ∈ h.chain i := by
  rw [ho.chain_eq hi]
  exact List.mem_cons_self ..

theorem Ordered.target_mem_chain (ho : h.Ordered) (hi : i < h.size) (x : Name) :
    h.target i x ∈ h.chain i := by
  unfold target
  cases hx : h.owner? i x with
  | some j => exact List.mem_of_find?_eq_some hx
  | none => exact ho.globalOf_mem_chain hi

/-- An assignment, too, writes on the chain, which has stayed as it was. -/
theorem Edits.assign (hd : h.Edits i p h') (ho : h.Ordered) (hi : i < h.size) {v : Value}
    (hv : h.Supplies i p v) (x : Name) : h.Edits i p (h'.assign i x v) := by
  have ho' : h'.Ordered := fun k j hj => ho k j (hd.enclosing k ▸ hj)
  have hchain : h'.chain i = h.chain i := chain_congr hd.size hd.enclosing i
  have htarget := ho'.target_mem_chain (hd.size ▸ hi) x
  exact hd.put (hchain ▸ htarget) hv x

theorem keeps_edits (ho : h.Ordered) (hi : i < h.size) (p : Expr) :
    p.Keeps i (fun s => h.Edits i p s.heap) (h.Supplies i p) where
  plain hv := .plain hv
  literal ho := .literal ho
  function ho := .function ho
  resolve {s} hs x := by
    rcases s.heap.resolve_mem i x with hx | ⟨j, hj⟩
    · rw [hx]
      exact .plain nofun
    · exact hs.stored j _ hj
  printed hs _ _ := hs
  declared hs _ hv := hs.put (ho.self_mem_chain hi) hv _
  assigned hs _ hv := hs.assign ho hi hv _

end

end Heap

/-! ## Results -/

/-- Code that does not write stays in the state that it starts in. -/
theorem Expr.ReadOnly.keeps {p : Expr} (hp : p.ReadOnly) (i : Nat) (s₀ : State) :
    p.Keeps i (fun s => s = s₀) fun _ => True where
  plain _ := trivial
  literal _ := trivial
  function _ := trivial
  resolve _ _ := trivial
  printed _ ho := absurd ho (hp.print _)
  declared _ ho := absurd ho (hp.declare _ _)
  assigned _ ho := absurd ho (hp.assign _ _)

/-- Straight-line code comes to a value or a failure. In each state on the way there are the same
scopes, and those off the chain are as they were; closures that are stored, or come to, capture
the scope of the run, or were bound before, or are literals. Code that does not print, declare or
assign changes nothing at all, so it comes to the same again. -/
theorem Expr.evaluates_straightLine {e : Expr} (he : e.StraightLine) {h : Heap}
    (hw : h.WellFormed) {i : Nat} (hi : i < h.size) (out : String) :
    (∃ r t, e.Evaluates i ⟨h, out⟩ (r, t) ∧ h.Edits i e t.heap ∧
      (∀ v, r = .ok v → h.Supplies i e v) ∧
      (e.ReadOnly → t = ⟨h, out⟩ ∧ ∀ o, e.Evaluates i t o ↔ o = (r, t))) ∧
    ∀ s, Task.Passes ⟨i, e, ⟨h, out⟩⟩ s → h.Edits i e s.heap := by
  have hk := Heap.keeps_edits hw.ordered hi e
  have hstart : h.Edits i e h := .refl h i e
  constructor
  · obtain ⟨r, t, hends, ht, hv⟩ := hk.settles he e .here (s := ⟨h, out⟩) hstart
    refine ⟨r, t, hends, ht, hv, fun hread => ?_⟩
    obtain ⟨hsame, -⟩ := (hread.keeps i ⟨h, out⟩).evaluates he .here rfl hends
    subst hsame
    exact ⟨rfl, Evaluates.iff_eq hends⟩
  · intro s hs
    exact hk.passes he (s := ⟨h, out⟩) hstart hs

/-- A function that does not come to an end is stored, and stored again, but it is not called. -/
def Expr.storeLooping : Expr :=
  .seq (.declare "f" (.function [] (.loop (.literal (.bool true)) (.call (.var "f") []))))
    (.assign "g" (.var "f"))

theorem Expr.straightLine_storeLooping : storeLooping.StraightLine := by
  have hfunction : ∀ ps b, (Expr.function ps b).StraightLine :=
    fun ps b => .of_children (by simp) (by simp) (by simp [children])
  have hvar : ∀ x, (Expr.var x).StraightLine :=
    fun x => .of_children (by simp) (by simp) (by simp [children])
  have hdeclare : ∀ x ps b, (Expr.declare x (.function ps b)).StraightLine :=
    fun x ps b => .of_children (by simp) (by simp) (by simp [children, hfunction])
  have hassign : ∀ x y, (Expr.assign x (.var y)).StraightLine :=
    fun x y => .of_children (by simp) (by simp) (by simp [children, hvar])
  exact .of_children (by simp [storeLooping]) (by simp [storeLooping])
    (by simp [storeLooping, children, hdeclare, hassign])

theorem storeLooping_evaluates : ∃ v t, Expr.storeLooping.Evaluates 1 ⟨.counter, ""⟩ (.ok v, t) ∧
    v.captured = [1] ∧ Heap.counter.Supplies 1 Expr.storeLooping v ∧
    Heap.counter.Edits 1 Expr.storeLooping t.heap ∧
    (t.heap.bindings 0).names = ["next", "g"] ∧ (t.heap.bindings 1).names = ["n", "f"] := by
  obtain ⟨⟨r, t, he, hedits, hv, -⟩, -⟩ :=
    Expr.evaluates_straightLine Expr.straightLine_storeLooping Heap.wellFormed_counter (i := 1)
      (by decide) ""
  have hends : Expr.storeLooping.Evaluates 1 ⟨.counter, ""⟩ (.ok _, _) := ⟨4, rfl⟩
  cases Expr.Evaluates.unique he hends
  exact ⟨_, _, he, rfl, hv _ rfl, hedits, rfl, rfl⟩

end Featherweight
