import Featherweight.Proofs.Ending
import Featherweight.Proofs.Origin

/-! Calls. The callee comes first and must be a closure; then the arguments are evaluated, from left
to right, up to the first that fails; then their number is checked; and only then the closure is
applied. Each check that fails leaves the state as it is at that point. -/
namespace Featherweight

namespace Action

/-- Applied to the arguments, the closure that is made of these parts ends in the result. -/
def Applies (params : List Name) (body : Expr) (captured : Nat) (arguments : List Value) :
    State → Except Failure Value × State → Prop :=
  EndsIn fun fuel => apply (Expr.eval fuel) params body captured arguments

theorem steady_apply (params : List Name) (body : Expr) (captured : Nat) (arguments : List Value) :
    Steady fun fuel => apply (Expr.eval fuel) params body captured arguments :=
  fun _ _ h => Below.apply (Expr.eval_below h) params body captured arguments

end Action

open Featherweight.Action

namespace Expr

/-- How a call ends. -/
inductive CallEnds (f : Expr) (args : List Expr) (i : Nat) (s : State) :
    Except Failure Value → State → Prop
  | callee {e t} : f.Evaluates i s (.error e, t) → CallEnds f args i s (.error e) t
  | notCallable {v t} : f.Evaluates i s (.ok v, t) → v.kind ≠ .closure →
      CallEnds f args i s (.error (.error (.notCallable v.kind) (some (.call f args)))) t
  | argument {ps b j before a after vs e t u u'} : f.Evaluates i s (.ok (.closure ps b j), t) →
      args = before ++ a :: after → InTurn i before t vs u → a.Evaluates i u (.error e, u') →
      CallEnds f args i s (.error e) u'
  | arity {ps b j vs t u} : f.Evaluates i s (.ok (.closure ps b j), t) → InTurn i args t vs u →
      vs.length ≠ ps.length →
      CallEnds f args i s (.error (.error (.arity ps.length vs.length) (some (.call f args)))) u
  | applied {ps b j vs t u r u'} : f.Evaluates i s (.ok (.closure ps b j), t) →
      InTurn i args t vs u → vs.length = ps.length → Applies ps b j vs u (r, u') →
      CallEnds f args i s r u'

section
variable {i : Nat} {es : List Expr} {s t u : State}

/-- Arguments fail when one of them does and those before it come to values. -/
theorem arguments_eq_error {f : Failure} :
    EndsIn (fun fuel => es.mapM (Expr.eval fuel i)) s (.error f, t) ↔
      ∃ before e after vs u, es = before ++ e :: after ∧ InTurn i before s vs u ∧
        e.Evaluates i u (.error f, t) := by
  constructor
  · intro h
    obtain ⟨fuel, h⟩ := h
    obtain ⟨before, e, after, vs, u, hes, hbefore, he⟩ := mapM_eq_error h
    exact ⟨before, e, after, vs, u, hes, arguments_eq_ok.1 ⟨fuel, hbefore⟩, fuel, he⟩
  · intro h
    obtain ⟨before, e, after, vs, u, rfl, hbefore, he⟩ := h
    induction hbefore with
    | nil =>
      obtain ⟨fuel, he⟩ := he
      refine ⟨fuel, ?_⟩
      simp only [List.nil_append, List.mapM_cons]
      exact bind_eq_some_iff.2 (.inl ⟨f, rfl, he⟩)
    | cons hd _ ih => exact arguments_cons hd (ih he)

end

section
variable {f : Expr} {args : List Expr} {i : Nat} {s t : State} {r : Except Failure Value}

theorem steady_call (i : Nat) (node : Expr) (args : List Expr) (v : Value) :
    Steady fun fuel => Action.call (Expr.eval fuel) i node args v :=
  fun _ _ h => Below.call (eval_below h) i node args v

/-- A call begins with its callee. -/
theorem evaluates_call : (Expr.call f args).Evaluates i s (r, t) ↔
    (∃ e, r = .error e ∧ f.Evaluates i s (.error e, t)) ∨
      ∃ v u, f.Evaluates i s (.ok v, u) ∧
        EndsIn (fun fuel => Action.call (Expr.eval fuel) i (.call f args) args v) u (r, t) := by
  rw [evaluates_iff_endsIn]
  exact endsIn_bind (f.steady_eval i) (steady_call i _ args)

/-- The call of a closure goes on with its arguments, and then their number decides. -/
theorem calls_closure {node : Expr} {ps : List Name} {b : Expr} {j : Nat} :
    EndsIn (fun fuel => Action.call (Expr.eval fuel) i node args (.closure ps b j)) s (r, t) ↔
      (∃ e, r = .error e ∧ EndsIn (fun fuel => args.mapM (Expr.eval fuel i)) s (.error e, t)) ∨
        ∃ vs u, InTurn i args s vs u ∧
          EndsIn (fun fuel => if vs.length = ps.length then apply (Expr.eval fuel) ps b j vs
            else fail (.arity ps.length vs.length) (some node)) u (r, t) := by
  have hsteady : ∀ vs : List Value, Steady fun fuel =>
      if vs.length = ps.length then apply (Expr.eval fuel) ps b j vs
      else fail (.arity ps.length vs.length) (some node) := by
    intro vs
    by_cases hl : vs.length = ps.length
    · simp only [if_pos hl]
      exact steady_apply ps b j vs
    · simp only [if_neg hl]
      exact .of_action _
  simp only [← arguments_eq_ok]
  exact endsIn_bind (steady_arguments i args) hsteady

/-- The call of another value fails before any argument is evaluated. -/
theorem call_of_kind (eval : Nat → Expr → Action Value) (node : Expr) {v : Value}
    (hv : v.kind ≠ .closure) :
    Action.call eval i node args v = fail (.notCallable v.kind) (some node) := by
  cases v with
  | closure => exact absurd rfl hv
  | _ => rfl

/-- What a call comes to is one of its ends. -/
theorem callEnds_of_evaluates (h : (Expr.call f args).Evaluates i s (r, t)) :
    CallEnds f args i s r t := by
  rcases evaluates_call.1 h with ⟨e, rfl, hf⟩ | ⟨v, u, hf, h⟩
  · exact .callee hf
  by_cases hv : v.kind = .closure
  · obtain ⟨ps, b, j, rfl⟩ := Value.kind_eq_closure_iff.1 hv
    rcases calls_closure.1 h with ⟨e, rfl, he⟩ | ⟨vs, u', hvs, h⟩
    · obtain ⟨before, a, after, vs, u', hargs, hbefore, ha⟩ := arguments_eq_error.1 he
      exact .argument hf hargs hbefore ha
    · by_cases hl : vs.length = ps.length
      · simp only [if_pos hl] at h
        exact .applied hf hvs hl h
      · simp only [if_neg hl] at h
        cases endsIn_of_action.1 h
        exact .arity hf hvs hl
  · simp only [call_of_kind _ _ hv] at h
    cases endsIn_of_action.1 h
    exact .notCallable hf hv

/-- Every end of a call is what it comes to. -/
theorem CallEnds.evaluates (h : CallEnds f args i s r t) :
    (Expr.call f args).Evaluates i s (r, t) := by
  cases h with
  | @callee e _ hf => exact evaluates_call.2 (.inl ⟨e, rfl, hf⟩)
  | @notCallable v _ hf hv =>
    refine evaluates_call.2 (.inr ⟨v, t, hf, ?_⟩)
    simp only [call_of_kind _ _ hv]
    exact endsIn_of_action.2 rfl
  | @argument _ _ _ before a after vs e _ u _ hf hargs hbefore ha =>
    have he := arguments_eq_error.2 ⟨before, a, after, vs, u, hargs, hbefore, ha⟩
    exact evaluates_call.2 (.inr ⟨_, _, hf, calls_closure.2 (.inl ⟨e, rfl, he⟩)⟩)
  | @arity _ _ _ vs _ _ hf hvs hl =>
    refine evaluates_call.2 (.inr ⟨_, _, hf, calls_closure.2 (.inr ⟨vs, t, hvs, ?_⟩)⟩)
    simp only [if_neg hl]
    exact endsIn_of_action.2 rfl
  | @applied _ _ _ vs _ u _ _ hf hvs hl happlies =>
    refine evaluates_call.2 (.inr ⟨_, _, hf, calls_closure.2 (.inr ⟨vs, u, hvs, ?_⟩)⟩)
    simp only [if_pos hl]
    exact happlies

/-- The number of arguments is never wrong any more when a closure is applied. -/
theorem Evaluates.arity_attached {m k : Nat} {node : Option Expr} {e : Expr}
    (h : e.Evaluates i s (.error (.error (.arity m k) node), t)) : node ≠ none := by
  obtain ⟨part, -, hraise⟩ := h.leads
  intro hnode
  cases hraise <;> cases hnode

end

/-- A call ends exactly as one of its ends says: the callee fails; or it is no closure, and then no
argument is evaluated; or an argument fails, and then none after it is; or all come to values, but
their number is not that of the parameters, and then no scope is made; or the application of the
closure to just these values ends so. An error about the number is attached to the call. -/
theorem evaluates_call_iff (f : Expr) (args : List Expr) (i : Nat) (s : State) :
    (∀ r t, (Expr.call f args).Evaluates i s (r, t) ↔ CallEnds f args i s r t) ∧
    ∀ m k t, ¬ (Expr.call f args).Evaluates i s (.error (.error (.arity m k) none), t) := by
  constructor
  · intro r t
    exact ⟨callEnds_of_evaluates, CallEnds.evaluates⟩
  · intro m k t h
    exact h.arity_attached rfl

/-- The second argument sees what the first one writes, and the scope of the call binds both. -/
example :
    (Expr.call (.function ["x", "y"] (.binary .subtract (.var "x") (.var "y")))
        [.assign "n" (int 44), .binary .subtract (.var "n") (int 2)]).eval 4 0
      ⟨⟨#[⟨none, []⟩]⟩, ""⟩ =
    some (.ok (.int 2),
      ⟨⟨#[⟨none, [("n", .int 44)]⟩, ⟨some 0, [("x", .int 44), ("y", .int 42)]⟩]⟩, ""⟩) := rfl

end Expr

end Featherweight
