import Featherweight.Proofs.Application

/-! Nodes whose parts come to values. For each kind of node, what it comes to when its parts come to
values in their turn, so that the run of a program can be told part by part. Operators, loops and
failing calls have modules of their own. -/
namespace Featherweight

namespace Action

/-- Two actions in order, of which the first answers. -/
theorem EndsIn.bind {α β : Type} {m : Nat → Action α} {f : Nat → α → Action β} {a : α} {s u : State}
    {o : Except Failure β × State} (hm : Steady m) (hf : ∀ a, Steady fun fuel => f fuel a)
    (hfirst : EndsIn m s (.ok a, u)) (hsecond : EndsIn (fun fuel => f fuel a) u o) :
    EndsIn (fun fuel => m fuel >>= f fuel) s o :=
  (endsIn_bind hm hf).2 (.inr ⟨a, u, hfirst, hsecond⟩)

end Action

open Featherweight.Action

namespace Expr
variable {i : Nat} {s u : State} {o : Except Failure Value × State}

theorem evaluates_literal (v : Value) (i : Nat) (s : State) :
    (Expr.literal v).Evaluates i s (.ok v, s) :=
  ⟨1, rfl⟩

theorem evaluates_var (x : Name) (i : Nat) (s : State) :
    (Expr.var x).Evaluates i s (.ok (s.heap.resolve i x), s) :=
  ⟨1, rfl⟩

theorem evaluates_var_of_resolve {x : Name} {v : Value} (hx : s.heap.resolve i x = v) :
    (Expr.var x).Evaluates i s (.ok v, s) :=
  hx ▸ evaluates_var x i s

theorem evaluates_function (ps : List Name) (b : Expr) (i : Nat) (s : State) :
    (Expr.function ps b).Evaluates i s (.ok (.closure ps b i), s) :=
  ⟨1, rfl⟩

/-- An operator on what comes to an integer and the literal of another. -/
theorem Evaluates.binary_int {op : Operator} {e : Expr} {n m : Int} {v : Value}
    (he : e.Evaluates i s (.ok (.int n), u)) (hv : op.compute n m = .ok v) :
    (Expr.binary op e (int m)).Evaluates i s (.ok v, u) := by
  have hm : (int m).Evaluates i u (.ok (.int m), u) := evaluates_literal ..
  have happly : op.apply (.int n) (.int m) = .ok v := hv
  have hboth : (Expr.binary op e (int m)).Evaluates i s _ := he.binary hm
  rwa [happly] at hboth

/-- A sequence ends in a failure of its first part, or as its second part does, which starts in the
state that the first leaves. -/
theorem evaluates_seq {a b : Expr} {r : Except Failure Value} {t : State} :
    (Expr.seq a b).Evaluates i s (r, t) ↔
      (∃ f, r = .error f ∧ a.Evaluates i s (.error f, t)) ∨
        ∃ v u, a.Evaluates i s (.ok v, u) ∧ b.Evaluates i u (r, t) := by
  rw [evaluates_iff_endsIn]
  exact endsIn_bind (a.steady_eval i) fun _ => b.steady_eval i

theorem Evaluates.seq {a b : Expr} {v : Value} (ha : a.Evaluates i s (.ok v, u))
    (hb : b.Evaluates i u o) : (Expr.seq a b).Evaluates i s o :=
  evaluates_seq.2 (.inr ⟨v, u, ha, hb⟩)

/-- What is left of a conditional, when its condition has come to a value. -/
theorem steady_branch (a b node : Expr) (i : Nat) (v : Value) : Steady fun fuel =>
    match v with
    | .bool true => a.eval fuel i
    | .bool false => b.eval fuel i
    | v => fail (.condition v.kind) (some node) := by
  intro fuel fuel' h
  cases v with
  | bool w =>
    cases w with
    | true => exact eval_below h i a
    | false => exact eval_below h i b
  | _ => exact .refl _

/-- A conditional ends as the branch does that its condition chooses. -/
theorem Evaluates.cond {c a b : Expr} {w : Bool} (hc : c.Evaluates i s (.ok (.bool w), u))
    (hbranch : (if w then a else b).Evaluates i u o) : (Expr.cond c a b).Evaluates i s o := by
  refine evaluates_iff_endsIn.2 (EndsIn.bind (c.steady_eval i) (steady_branch a b _ i) hc ?_)
  cases w with
  | true => exact hbranch
  | false => exact hbranch

theorem Evaluates.declare {x : Name} {e : Expr} {v : Value}
    (he : e.Evaluates i s (.ok v, u)) (hx : x ∉ (u.heap.bindings i).names) :
    (Expr.declare x e).Evaluates i s (.ok .undefined, { u with heap := u.heap.put i x v }) := by
  refine evaluates_iff_endsIn.2 (EndsIn.bind (e.steady_eval i) (fun _ => .of_action _) he ?_)
  have hbinds : u.heap.binds i x = false := by
    simpa [← Bindings.find?_isSome_iff, Heap.binds, Heap.find?] using hx
  refine endsIn_of_action.2 ?_
  simp [bind_apply, Action.declare, hbinds, pure_apply]

theorem Evaluates.assign {e : Expr} {v : Value} (he : e.Evaluates i s (.ok v, u)) (x : Name) :
    (Expr.assign x e).Evaluates i s (.ok v, { u with heap := u.heap.assign i x v }) := by
  refine evaluates_iff_endsIn.2 (EndsIn.bind (e.steady_eval i) (fun _ => .of_action _) he ?_)
  exact endsIn_of_action.2 rfl

/-- A call of a closure ends as its body does in a new scope, which binds the parameters to what the
arguments come to. -/
theorem Evaluates.call {f b : Expr} {args : List Expr} {ps : List Name} {j : Nat} {vs : List Value}
    {t : State} (hf : f.Evaluates i s (.ok (.closure ps b j), u)) (hargs : InTurn i args u vs t)
    (hl : vs.length = ps.length) (hps : ps.Nodup)
    (hb : b.Evaluates t.heap.size { t with heap := t.heap.newFrame j (ps.zip vs) } o) :
    (Expr.call f args).Evaluates i s o :=
  (CallEnds.applied hf hargs hl ((applies_of_nodup hl hps).2 hb)).evaluates

end Expr

end Featherweight
