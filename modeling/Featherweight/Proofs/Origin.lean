import Featherweight.Proofs.Ending
import Featherweight.Proofs.Task

/-! Where failures arise. One node of a failing run finds the failure itself, after the parts that
it needs have come to values; the nodes around it pass the failure on and do nothing more. So the
run comes to a task that raises its failure, in the very state that the run ends in. -/
namespace Featherweight

namespace Action

/-! ## Actions that fail -/

/-- A failure of two actions in order is one of the first, or of the second on what the first
answers. -/
theorem bind_eq_error {α β : Type} {m : Action α} {k : α → Action β} {s t : State} {f : Failure}
    (h : (m >>= k) s = some (.error f, t)) :
    m s = some (.error f, t) ∨ ∃ a u, m s = some (.ok a, u) ∧ k a u = some (.error f, t) := by
  rcases bind_eq_some_iff.1 h with ⟨e, he, hfirst⟩ | hsecond
  · cases he
    exact .inl hfirst
  · exact .inr hsecond

theorem pure_ne_error {α : Type} {a : α} {s t : State} {f : Failure} :
    (pure a : Action α) s ≠ some (.error f, t) := by
  simp [pure_apply]

theorem printLine_eq_error {v : Value} {s t : State} {f : Failure}
    (h : printLine v s = some (.error f, t)) : v.text? = none ∧ f = .digitLimit ∧ t = s := by
  rw [printLine] at h
  cases htext : v.text? with
  | none =>
    rw [htext] at h
    cases h
    exact ⟨rfl, rfl, rfl⟩
  | some text => simp [htext] at h

theorem declare_eq_error {i : Nat} {x : Name} {v : Value} {node : Option Expr} {s t : State}
    {f : Failure} (h : declare i x v node s = some (.error f, t)) :
    s.heap.binds i x = true ∧ f = .error (.duplicate x) node ∧ t = s := by
  rw [declare] at h
  cases hb : s.heap.binds i x with
  | true =>
    rw [hb, if_pos rfl] at h
    cases h
    exact ⟨rfl, rfl, rfl⟩
  | false => simp [hb] at h

/-- The scope of a call cannot be opened when a parameter is declared twice. It is there then, with
the parameters before that. -/
theorem openFrame_eq_error {captured : Nat} {b : Bindings} {s t : State} {f : Failure}
    (h : openFrame captured b s = some (.error f, t)) :
    ∃ x, (Bindings.declareAll [] b).2 = some x ∧ f = .error (.duplicate x) none ∧
      t = { s with heap := s.heap.newFrame captured (Bindings.declareAll [] b).1 } := by
  rw [openFrame_apply] at h
  cases hx : (Bindings.declareAll [] b).2 with
  | none => simp [hx] at h
  | some x =>
    rw [hx] at h
    cases h
    exact ⟨x, rfl, rfl, rfl⟩

/-- Of several programs evaluated in order, the first that fails gives the failure. -/
theorem mapM_eq_error {eval : Expr → Action Value} {es : List Expr} {s t : State} {f : Failure}
    (h : es.mapM eval s = some (.error f, t)) :
    ∃ before e after vs u, es = before ++ e :: after ∧ before.mapM eval s = some (.ok vs, u) ∧
      eval e u = some (.error f, t) := by
  induction es generalizing s with
  | nil => exact absurd h pure_ne_error
  | cons e es ih =>
    rw [List.mapM_cons] at h
    rcases bind_eq_error h with he | ⟨v, u, hv, h⟩
    · exact ⟨[], e, es, [], s, rfl, rfl, he⟩
    · rcases bind_eq_error h with hes | ⟨vs, w, -, h⟩
      · obtain ⟨before, d, after, vs, w, rfl, hbefore, hd⟩ := ih hes
        refine ⟨e :: before, d, after, v :: vs, w, rfl, ?_, hd⟩
        rw [List.mapM_cons, bind_apply, hv]
        simp only [bind_apply, hbefore, pure_apply]
      · exact absurd h pure_ne_error

end Action

namespace Task

/-! ## Tasks that raise -/

/-- The node of a task fails by itself, in a state: its own check comes out badly, on the values
that its parts have come to. -/
inductive Raises : Task → Failure → State → Prop
  | text {i e v s t} : e.Evaluates i s (.ok v, t) → v.text? = none →
      Raises ⟨i, .print e, s⟩ .digitLimit t
  | operands {i op l r v w cause s t u} : l.Evaluates i s (.ok v, t) → r.Evaluates i t (.ok w, u) →
      op.apply v w = .error cause →
      Raises ⟨i, .binary op l r, s⟩ (.error cause (some (.binary op l r))) u
  | condition {i c a b v s t} : c.Evaluates i s (.ok v, t) → v.kind ≠ .bool →
      Raises ⟨i, .cond c a b, s⟩ (.error (.condition v.kind) (some (.cond c a b))) t
  | loopCondition {i c b v w s t u u'} : c.Evaluates i s (.ok (.bool true), t) →
      b.Evaluates i t (.ok v, u) → c.Evaluates i u (.ok w, u') → w.kind ≠ .bool →
      Raises ⟨i, .loop c b, s⟩ (.error (.loopCondition w.kind) (some (.loop c b))) u'
  | redeclaration {i x e v s t} : e.Evaluates i s (.ok v, t) → t.heap.binds i x = true →
      Raises ⟨i, .declare x e, s⟩ (.error (.duplicate x) (some (.declare x e))) t
  | notCallable {i f args v s t} : f.Evaluates i s (.ok v, t) → v.kind ≠ .closure →
      Raises ⟨i, .call f args, s⟩ (.error (.notCallable v.kind) (some (.call f args))) t
  | arity {i f args ps b j vs s t u} : f.Evaluates i s (.ok (.closure ps b j), t) →
      Expr.InTurn i args t vs u → vs.length ≠ ps.length →
      Raises ⟨i, .call f args, s⟩ (.error (.arity ps.length vs.length) (some (.call f args))) u
  | parameter {i f args ps b j vs s t u x} : f.Evaluates i s (.ok (.closure ps b j), t) →
      Expr.InTurn i args t vs u → vs.length = ps.length →
      (Bindings.declareAll [] (ps.zip vs)).2 = some x →
      Raises ⟨i, .call f args, s⟩ (.error (.duplicate x) none)
        { u with heap := u.heap.newFrame j (Bindings.declareAll [] (ps.zip vs)).1 }

/-- A run comes to a task that raises the failure. -/
def Leads (task : Task) (f : Failure) (t : State) : Prop :=
  ∃ part, task.Reaches part ∧ part.Raises f t

theorem Raises.leads {task : Task} {f : Failure} {t : State} (h : task.Raises f t) :
    task.Leads f t :=
  ⟨task, .refl, h⟩

theorem Starts.leads {task part : Task} {f : Failure} {t : State} (hs : task.Starts part)
    (h : part.Leads f t) : task.Leads f t := by
  obtain ⟨origin, hreach, hraise⟩ := h
  exact ⟨origin, .head hs hreach, hraise⟩

/-! ## From a failure to the task that raises it -/

/-- Failures of evaluation with this fuel lead back to tasks that raise them. -/
def FailuresLead (fuel : Nat) : Prop :=
  ∀ {i e s f t}, Expr.eval fuel i e s = some (.error f, t) → Leads ⟨i, e, s⟩ f t

section
variable {fuel : Nat} (ih : FailuresLead fuel) {i : Nat} {s t : State} {fail : Failure}
include ih

theorem FailuresLead.rounds {c b : Expr} {n : Nat} {t' : State}
    (hc : c.Evaluates i s (.ok (.bool true), t))
    (h : Action.rounds (c.eval fuel i) (b.eval fuel i) (.loop c b) n t = some (.error fail, t')) :
    Leads ⟨i, .loop c b, s⟩ fail t' := by
  -- A later round is the first round of the loop that is left, so the start moves with `n`.
  induction n generalizing s t with
  | zero => cases h
  | succ n rounds =>
    rcases Action.bind_eq_error h with hb | ⟨v, u, hb, h⟩
    · exact (Starts.round hc).leads (ih hb)
    have again : Starts ⟨i, .loop c b, s⟩ ⟨i, .loop c b, u⟩ := .again hc ⟨fuel, hb⟩
    rcases Action.bind_eq_error h with hw | ⟨w, u', hw, h⟩
    · exact again.leads ((Starts.first rfl).leads (ih hw))
    · cases w with
      | bool w =>
        cases w with
        | true => exact again.leads (rounds ⟨fuel, hw⟩ h)
        | false => exact absurd h Action.pure_ne_error
      | _ =>
        cases h
        exact (Raises.loopCondition hc ⟨fuel, hb⟩ ⟨fuel, hw⟩ (by simp [Value.kind])).leads

theorem FailuresLead.call {f : Expr} {args : List Expr} {v : Value} {t' : State}
    (hf : f.Evaluates i s (.ok v, t))
    (h : Action.call (Expr.eval fuel) i (.call f args) args v t = some (.error fail, t')) :
    Leads ⟨i, .call f args, s⟩ fail t' := by
  cases v with
  | closure ps b j =>
    rcases Action.bind_eq_error h with hargs | ⟨vs, u, hvs, h⟩
    · obtain ⟨before, a, after, vs, u, rfl, hbefore, ha⟩ := Action.mapM_eq_error hargs
      exact (Starts.argument hf (Expr.arguments_eq_ok.1 ⟨fuel, hbefore⟩)).leads (ih ha)
    have hturn : Expr.InTurn i args t vs u := Expr.arguments_eq_ok.1 ⟨fuel, hvs⟩
    by_cases hl : vs.length = ps.length
    · simp only [Action.apply, hl, if_true] at h
      rw [Action.enter_eq] at h
      rcases Action.bind_eq_error h with ho | ⟨k, u', ho, hb⟩
      · obtain ⟨x, hx, rfl, rfl⟩ := Action.openFrame_eq_error ho
        exact (Raises.parameter hf hturn hl hx).leads
      · exact (Starts.body hf hturn hl ho).leads (ih hb)
    · simp only [hl, if_false] at h
      cases h
      exact (Raises.arity hf hturn hl).leads
  | _ =>
    cases h
    exact (Raises.notCallable hf (by simp [Value.kind])).leads

end

theorem failuresLead (fuel : Nat) : FailuresLead fuel := by
  -- Not on the program, since the body of a called closure is no part of it.
  induction fuel with
  | zero =>
    intro i e s f t h
    cases h
  | succ fuel ih =>
    intro i e s f t h
    cases e with
    | literal v => exact absurd h Action.pure_ne_error
    | var x => cases h
    | function ps b => exact absurd h Action.pure_ne_error
    | print e =>
      rcases Action.bind_eq_error h with he | ⟨v, u, hv, h⟩
      · exact (Starts.first rfl).leads (ih he)
      rcases Action.bind_eq_error h with hp | ⟨-, u', -, h⟩
      · obtain ⟨htext, rfl, rfl⟩ := Action.printLine_eq_error hp
        exact (Raises.text ⟨fuel, hv⟩ htext).leads
      · exact absurd h Action.pure_ne_error
    | binary op l r =>
      rcases Action.bind_eq_error h with hl | ⟨v, u, hl, h⟩
      · exact (Starts.first rfl).leads (ih hl)
      rcases Action.bind_eq_error h with hr | ⟨w, u', hr, h⟩
      · exact (Starts.right ⟨fuel, hl⟩).leads (ih hr)
      cases hop : op.apply v w with
      | ok x => exact absurd (by simpa only [hop] using h) Action.pure_ne_error
      | error cause =>
        simp only [hop] at h
        cases h
        exact (Raises.operands ⟨fuel, hl⟩ ⟨fuel, hr⟩ hop).leads
    | cond c a b =>
      rcases Action.bind_eq_error h with hc | ⟨v, u, hc, h⟩
      · exact (Starts.first rfl).leads (ih hc)
      cases v with
      | bool v =>
        cases v with
        | true => exact (Starts.branch true ⟨fuel, hc⟩).leads (ih h)
        | false => exact (Starts.branch false ⟨fuel, hc⟩).leads (ih h)
      | _ =>
        cases h
        exact (Raises.condition ⟨fuel, hc⟩ (by simp [Value.kind])).leads
    | loop c b =>
      rcases Action.bind_eq_error h with hc | ⟨v, u, hc, h⟩
      · exact (Starts.first rfl).leads (ih hc)
      cases v with
      | bool v =>
        cases v with
        | true => exact ih.rounds ⟨fuel, hc⟩ h
        | false => exact absurd h Action.pure_ne_error
      | _ => exact absurd h Action.pure_ne_error
    | seq a b =>
      rcases Action.bind_eq_error h with ha | ⟨v, u, ha, hb⟩
      · exact (Starts.first rfl).leads (ih ha)
      · exact (Starts.second ⟨fuel, ha⟩).leads (ih hb)
    | declare x e =>
      rcases Action.bind_eq_error h with he | ⟨v, u, hv, h⟩
      · exact (Starts.first rfl).leads (ih he)
      rcases Action.bind_eq_error h with hd | ⟨-, u', -, h⟩
      · obtain ⟨hb, rfl, rfl⟩ := Action.declare_eq_error hd
        exact (Raises.redeclaration ⟨fuel, hv⟩ hb).leads
      · exact absurd h Action.pure_ne_error
    | assign x e =>
      rcases Action.bind_eq_error h with he | ⟨v, u, hv, h⟩
      · exact (Starts.first rfl).leads (ih he)
      rcases Action.bind_eq_error h with ha | ⟨-, u', -, h⟩
      · cases ha
      · exact absurd h Action.pure_ne_error
    | call f args =>
      rcases Action.bind_eq_error h with hf | ⟨v, u, hf, h⟩
      · exact (Starts.first rfl).leads (ih hf)
      · exact ih.call ⟨fuel, hf⟩ h

end Task

/-- A failing run comes to a task that raises its failure, in the state that the run ends in. -/
theorem Expr.Evaluates.leads {e : Expr} {i : Nat} {s t : State} {f : Failure}
    (h : e.Evaluates i s (.error f, t)) : Task.Leads ⟨i, e, s⟩ f t := by
  obtain ⟨fuel, h⟩ := h
  exact Task.failuresLead fuel h

end Featherweight
