import Featherweight.Eval.Fuel

/-! Ends of evaluation, without fuel. An action that more fuel does not disturb ends in one result,
if any fuel suffices; two such actions in order end as their parts do, each with as much fuel as it
needs. So what a node comes to can be told from what its parts come to. -/
namespace Featherweight

namespace Action

/-- With enough fuel the action ends in the result. -/
def EndsIn {α : Type} (m : Nat → Action α) (s : State) (r : Except Failure α × State) : Prop :=
  ∃ fuel, m fuel s = some r

/-- More fuel keeps a result. -/
def Steady {α : Type} (m : Nat → Action α) : Prop :=
  ∀ ⦃fuel fuel'⦄, fuel ≤ fuel' → Below (m fuel) (m fuel')

section
variable {α β : Type} {s t : State}

theorem Steady.of_action (m : Action α) : Steady fun _ => m :=
  fun _ _ _ => .refl m

theorem endsIn_of_action {m : Action α} {r : Except Failure α × State} :
    EndsIn (fun _ => m) s r ↔ m s = some r := by
  simp [EndsIn]

/-- Another unit of fuel makes no difference to how an action ends. -/
theorem Steady.endsIn_succ {m : Nat → Action α} (hm : Steady m)
    {r : Except Failure α × State} : EndsIn (fun fuel => m (fuel + 1)) s r ↔ EndsIn m s r := by
  constructor
  · intro h
    obtain ⟨fuel, h⟩ := h
    exact ⟨fuel + 1, h⟩
  · intro h
    obtain ⟨fuel, h⟩ := h
    exact ⟨fuel, hm (Nat.le_succ fuel) s r h⟩

/-- Two actions in order end in a failure of the first, or as the second does on what the first
answers, in the state that the first leaves. -/
theorem bind_eq_some_iff {m : Action α} {f : α → Action β} {r : Except Failure β} :
    (m >>= f) s = some (r, t) ↔
      (∃ e, r = .error e ∧ m s = some (.error e, t)) ∨
        ∃ a u, m s = some (.ok a, u) ∧ f a u = some (r, t) := by
  rw [bind_apply]
  constructor
  · intro h
    cases hfirst : m s with
    | none => simp [hfirst] at h
    | some o =>
      rw [hfirst] at h
      obtain ⟨_ | a, u⟩ := o
      · cases h
        exact .inl ⟨_, rfl, rfl⟩
      · exact .inr ⟨a, u, rfl, h⟩
  · intro h
    rcases h with ⟨e, rfl, hfirst⟩ | ⟨a, u, hfirst, hsecond⟩
    · rw [hfirst]
    · rw [hfirst]
      exact hsecond

/-- For the two parts of an action, enough fuel is enough for each. -/
theorem endsIn_bind {m : Nat → Action α} {f : Nat → α → Action β} (hm : Steady m)
    (hf : ∀ a, Steady fun fuel => f fuel a) {r : Except Failure β} :
    EndsIn (fun fuel => m fuel >>= f fuel) s (r, t) ↔
      (∃ e, r = .error e ∧ EndsIn m s (.error e, t)) ∨
        ∃ a u, EndsIn m s (.ok a, u) ∧ EndsIn (fun fuel => f fuel a) u (r, t) := by
  constructor
  · intro h
    obtain ⟨fuel, h⟩ := h
    rcases bind_eq_some_iff.1 h with ⟨e, hr, hfirst⟩ | ⟨a, u, hfirst, hsecond⟩
    · exact .inl ⟨e, hr, fuel, hfirst⟩
    · exact .inr ⟨a, u, ⟨fuel, hfirst⟩, fuel, hsecond⟩
  · intro h
    rcases h with ⟨e, hr, fuel, hfirst⟩ | ⟨a, u, ⟨fuel, hfirst⟩, fuel', hsecond⟩
    · exact ⟨fuel, bind_eq_some_iff.2 (.inl ⟨e, hr, hfirst⟩)⟩
    · have hfirst := hm (Nat.le_add_right fuel fuel') s _ hfirst
      have hsecond := hf a (Nat.le_add_left fuel' fuel) u _ hsecond
      exact ⟨fuel + fuel', bind_eq_some_iff.2 (.inr ⟨a, u, hfirst, hsecond⟩)⟩

end

end Action

open Featherweight.Action

namespace Expr

theorem steady_eval (e : Expr) (i : Nat) : Steady fun fuel => e.eval fuel i :=
  fun _ _ h => eval_below h i e

/-- A node ends as it does when there is fuel left for its parts. -/
theorem evaluates_iff_endsIn {e : Expr} {i : Nat} {s : State} {r : Except Failure Value × State} :
    e.Evaluates i s r ↔ EndsIn (fun fuel => e.eval (fuel + 1) i) s r :=
  (e.steady_eval i).endsIn_succ.symm

/-- Evaluation comes to no result, however much fuel there is. -/
def Diverges (e : Expr) (i : Nat) (s : State) : Prop :=
  ∀ fuel, e.eval fuel i s = none

theorem diverges_iff {e : Expr} {i : Nat} {s : State} :
    e.Diverges i s ↔ ∀ r t, ¬ e.Evaluates i s (r, t) := by
  constructor
  · intro h r t he
    obtain ⟨fuel, he⟩ := he
    simp [h fuel] at he
  · intro h fuel
    cases he : e.eval fuel i s with
    | none => rfl
    | some o => exact absurd ⟨fuel, he⟩ (h o.1 o.2)

theorem Evaluates.iff_eq {e : Expr} {i : Nat} {s : State} {r : Except Failure Value × State}
    (h : e.Evaluates i s r) (o : Except Failure Value × State) : e.Evaluates i s o ↔ o = r := by
  constructor
  · exact fun ho => ho.unique h
  · intro ho
    rwa [ho]

/-- An operator on two programs that come to values, the left one first. -/
theorem Evaluates.binary {op : Operator} {l r : Expr} {v w : Value} {i : Nat} {s t u : State}
    (hl : l.Evaluates i s (.ok v, t)) (hr : r.Evaluates i t (.ok w, u)) :
    (Expr.binary op l r).Evaluates i s
      ((op.apply v w).mapError fun cause => .error cause (some (.binary op l r)), u) := by
  refine evaluates_iff_endsIn.2 <| (endsIn_bind (l.steady_eval i) fun v => ?_).2 <|
    .inr ⟨v, t, hl, ?_⟩
  · exact fun _ _ h => Below.bind (r.steady_eval i h) fun w => .refl _
  refine (endsIn_bind (r.steady_eval i) fun w => ?_).2 <| .inr ⟨w, u, hr, ?_⟩
  · exact Steady.of_action _
  refine endsIn_of_action.2 ?_
  cases op.apply v w <;> rfl

/-! ## Programs in turn -/

/-- Programs evaluated in scope `i` in turn, each once, in the state that the one before it leaves.
All come to values. -/
inductive InTurn (i : Nat) : List Expr → State → List Value → State → Prop
  | nil {s} : InTurn i [] s [] s
  | cons {e es v vs s t u} : e.Evaluates i s (.ok v, t) → InTurn i es t vs u →
      InTurn i (e :: es) s (v :: vs) u

section
variable {i : Nat} {es : List Expr} {s t u : State}

/-- After some programs in turn come others. -/
theorem InTurn.append {ds : List Expr} {vs ws : List Value} (h : InTurn i es s vs u)
    (h' : InTurn i ds u ws t) : InTurn i (es ++ ds) s (vs ++ ws) t := by
  induction h with
  | nil => exact h'
  | cons he _ ih => exact .cons he (ih h')

theorem steady_arguments (i : Nat) (es : List Expr) :
    Steady fun fuel => es.mapM (Expr.eval fuel i) :=
  fun _ _ h => Below.mapM (eval_below h i) es

/-- A first argument that comes to a value stands before what the others come to. -/
theorem arguments_cons {e : Expr} {v : Value} {r : Except Failure (List Value)}
    (he : e.Evaluates i s (.ok v, u))
    (h : EndsIn (fun fuel => es.mapM (Expr.eval fuel i)) u (r, t)) :
    EndsIn (fun fuel => (e :: es).mapM (Expr.eval fuel i)) s (r.map (v :: ·), t) := by
  simp only [List.mapM_cons]
  refine (endsIn_bind (e.steady_eval i) fun v => ?_).2 (.inr ⟨v, u, he, ?_⟩)
  · exact fun _ _ h => (steady_arguments i es h).bind fun vs => .refl _
  refine (endsIn_bind (steady_arguments i es) fun vs => ?_).2 ?_
  · exact Steady.of_action _
  cases r with
  | error f => exact .inl ⟨f, rfl, h⟩
  | ok vs => exact .inr ⟨vs, t, h, endsIn_of_action.2 rfl⟩

/-- Arguments come to values when each does in its turn. -/
theorem arguments_eq_ok {vs : List Value} :
    EndsIn (fun fuel => es.mapM (Expr.eval fuel i)) s (.ok vs, t) ↔ InTurn i es s vs t := by
  constructor
  · intro h
    obtain ⟨fuel, h⟩ := h
    induction es generalizing s vs with
    | nil =>
      cases h
      exact .nil
    | cons e es ih =>
      simp only [List.mapM_cons] at h
      rcases bind_eq_some_iff.1 h with ⟨_, ⟨⟩, -⟩ | ⟨v, u, hv, h⟩
      rcases bind_eq_some_iff.1 h with ⟨_, ⟨⟩, -⟩ | ⟨vs, u', hvs, h⟩
      cases h
      exact .cons ⟨fuel, hv⟩ (ih hvs)
  · intro h
    induction h with
    | nil => exact ⟨0, rfl⟩
    | cons he _ ih => exact arguments_cons he ih

end

end Expr

end Featherweight
