import Featherweight.Proofs.Ending
import Featherweight.Proofs.Invariant
import Mathlib.Logic.Relation

/-! The states that a run passes, also one that never comes to a result. Evaluation of a program
starts that of its parts one after another; each start is a task of its own. An invariant that
the basic actions keep holds in all of them. -/
namespace Featherweight

/-- A program about to be evaluated in a scope. -/
structure Task where
  scope : Nat
  program : Expr
  state : State

namespace Task

/-- What evaluation of a program starts next: its first part at once, another part when those
before it have come to values, the body of a function when all its parameters are bound. What is
left of a loop after a round starts like the loop, with the condition. -/
inductive Starts : Task → Task → Prop
  | first {i e d ds s} : e.children = d :: ds → Starts ⟨i, e, s⟩ ⟨i, d, s⟩
  | right {i op l r v s t} : l.Evaluates i s (.ok v, t) → Starts ⟨i, .binary op l r, s⟩ ⟨i, r, t⟩
  | branch {i c a b s t} (v : Bool) : c.Evaluates i s (.ok (.bool v), t) →
      Starts ⟨i, .cond c a b, s⟩ ⟨i, if v then a else b, t⟩
  | round {i c b s t} : c.Evaluates i s (.ok (.bool true), t) →
      Starts ⟨i, .loop c b, s⟩ ⟨i, b, t⟩
  | again {i c b v s t u} : c.Evaluates i s (.ok (.bool true), t) → b.Evaluates i t (.ok v, u) →
      Starts ⟨i, .loop c b, s⟩ ⟨i, .loop c b, u⟩
  | second {i a b v s t} : a.Evaluates i s (.ok v, t) → Starts ⟨i, .seq a b, s⟩ ⟨i, b, t⟩
  | argument {i f before a after ps b j vs s t u} : f.Evaluates i s (.ok (.closure ps b j), t) →
      Expr.InTurn i before t vs u →
      Starts ⟨i, .call f (before ++ a :: after), s⟩ ⟨i, a, u⟩
  | body {i f args ps b j vs k s t u u'} : f.Evaluates i s (.ok (.closure ps b j), t) →
      Expr.InTurn i args t vs u → vs.length = ps.length →
      Action.openFrame j (ps.zip vs) u = some (.ok k, u') →
      Starts ⟨i, .call f args, s⟩ ⟨k, b, u'⟩

/-- The tasks that a run comes to, itself included. -/
def Reaches : Task → Task → Prop :=
  Relation.ReflTransGen Starts

/-- A run passes a state when evaluation of a part starts there or ends there. -/
def Passes (task : Task) (s : State) : Prop :=
  ∃ part, task.Reaches part ∧
    (s = part.state ∨ ∃ r, part.program.Evaluates part.scope part.state (r, s))

end Task

namespace Invariant
variable {I : Invariant} (hI : I.Sound)
include hI

theorem Sound.step_trans {s t u : State} (h : I.Step s t) (h' : I.Step t u) : I.Step s u :=
  ⟨hI.trans h.1 h'.1, h'.2⟩

/-- An invariant outlasts programs that come to values in turn. -/
theorem Sound.inTurn {es : List Expr} {i : Nat} {s t : State} {vs : List Value} (hs : I.Good s)
    (he : ∀ e ∈ es, I.Programs s i e) (h : Expr.InTurn i es s vs t) :
    I.Step s t ∧ ∀ v ∈ vs, I.Values t v := by
  induction h with
  | nil => exact ⟨⟨hI.refl _, hs⟩, by simp⟩
  | cons heval _ ih =>
    obtain ⟨hfirst, hrest⟩ := List.forall_mem_cons.1 he
    obtain ⟨hstep, hv⟩ := hI.evaluates hs hfirst heval
    obtain ⟨hstep', hvs⟩ := ih hstep.2 fun e hmem => hI.programs_later hstep.1 (hrest e hmem)
    refine ⟨hI.step_trans hstep hstep', List.forall_mem_cons.2 ⟨?_, hvs⟩⟩
    exact hI.values_later hstep'.1 (hv _ rfl)

/-- The next part may be evaluated after others have been. -/
theorem Sound.child_later {s t : State} {i : Nat} {e d : Expr} (he : I.Programs s i e)
    (hd : d ∈ e.children) (hl : I.Later s t) : I.Programs t i d :=
  hI.programs_later hl (hI.children he hd)

theorem Sound.starts {task part : Task} (hs : I.Good task.state)
    (hp : I.Programs task.state task.scope task.program) (h : task.Starts part) :
    I.Step task.state part.state ∧ I.Programs part.state part.scope part.program := by
  have child : ∀ {d}, d ∈ task.program.children → I.Programs task.state task.scope d :=
    fun hd => hI.children hp hd
  cases h with
  | first hd => exact ⟨⟨hI.refl _, hs⟩, child (hd ▸ List.mem_cons_self ..)⟩
  | right hl =>
    obtain ⟨hstep, -⟩ := hI.evaluates hs (child (by simp [Expr.children])) hl
    exact ⟨hstep, hI.child_later hp (by simp [Expr.children]) hstep.1⟩
  | branch v hc =>
    obtain ⟨hstep, -⟩ := hI.evaluates hs (child (by simp [Expr.children])) hc
    exact ⟨hstep, hI.child_later hp (by cases v <;> simp [Expr.children]) hstep.1⟩
  | round hc =>
    obtain ⟨hstep, -⟩ := hI.evaluates hs (child (by simp [Expr.children])) hc
    exact ⟨hstep, hI.child_later hp (by simp [Expr.children]) hstep.1⟩
  | @again i c b v s t u hc hb =>
    obtain ⟨hstep, -⟩ := hI.evaluates hs (child (by simp [Expr.children])) hc
    have hbody : I.Programs t i b := hI.child_later hp (by simp [Expr.children]) hstep.1
    obtain ⟨hstep', -⟩ := hI.evaluates hstep.2 hbody hb
    have hboth := hI.step_trans hstep hstep'
    exact ⟨hboth, hI.programs_later hboth.1 hp⟩
  | second ha =>
    obtain ⟨hstep, -⟩ := hI.evaluates hs (child (by simp [Expr.children])) ha
    exact ⟨hstep, hI.child_later hp (by simp [Expr.children]) hstep.1⟩
  | @argument i f before a after ps b j vs s t u hf hbefore =>
    obtain ⟨hstep, -⟩ := hI.evaluates hs (child (by simp [Expr.children])) hf
    have hargs : ∀ e ∈ before, I.Programs t i e := fun e he =>
      hI.child_later hp (by simp [Expr.children, he]) hstep.1
    obtain ⟨hstep', -⟩ := hI.inTurn hstep.2 hargs hbefore
    have hboth := hI.step_trans hstep hstep'
    exact ⟨hboth, hI.child_later hp (by simp [Expr.children]) hboth.1⟩
  | @body i f args ps b j vs k s t u u' hf hall hl ho =>
    obtain ⟨hstep, hv⟩ := hI.evaluates hs (child (by simp [Expr.children])) hf
    have hargs : ∀ e ∈ args, I.Programs t i e := fun e he =>
      hI.child_later hp (by simp [Expr.children, he]) hstep.1
    obtain ⟨hstep', hvs⟩ := hI.inTurn hstep.2 hargs hall
    have hboth := hI.step_trans hstep hstep'
    -- The callee was found before the arguments, and still satisfies the invariant after them.
    have hclosure := hI.values_later hstep'.1 (hv _ rfl)
    obtain ⟨hopen, hbody⟩ := hI.opened hboth.2 hclosure hvs hl rfl
    rw [Action.openFrame_apply] at ho
    cases hnew : (Bindings.declareAll [] (ps.zip vs)).2 with
    | none =>
      simp only [hnew, Option.elim, Option.some.injEq, Prod.mk.injEq, Except.ok.injEq] at ho
      obtain ⟨rfl, rfl⟩ := ho
      exact ⟨hI.step_trans hboth hopen, hbody hnew⟩
    | some x => simp [hnew] at ho

/-- An invariant holds in all tasks that a run comes to. -/
theorem Sound.reaches {task part : Task} (h : task.Reaches part) (hs : I.Good task.state)
    (hp : I.Programs task.state task.scope task.program) :
    I.Good part.state ∧ I.Programs part.state part.scope part.program := by
  induction h with
  | refl => exact ⟨hs, hp⟩
  | tail _ hstart ih =>
    obtain ⟨hstep, hpart⟩ := hI.starts ih.1 ih.2 hstart
    exact ⟨hstep.2, hpart⟩

/-- An invariant holds in all states that a run passes. -/
theorem Sound.passes {s t : State} {i : Nat} {e : Expr} (hs : I.Good s) (hp : I.Programs s i e)
    (h : Task.Passes ⟨i, e, s⟩ t) : I.Good t := by
  obtain ⟨part, hreach, hstate⟩ := h
  obtain ⟨hgood, hpart⟩ := hI.reaches hreach hs hp
  rcases hstate with rfl | ⟨r, heval⟩
  · exact hgood
  · exact (hI.evaluates hgood hpart heval).1.2

end Invariant

end Featherweight
