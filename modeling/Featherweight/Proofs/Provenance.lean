import Featherweight.Proofs.Lexical
import Featherweight.Proofs.Origin
import Featherweight.Proofs.Recheck

/-! Provenance of errors. The node that raises an error may be the body of a closure that has come
a long way through the heap; it is a node of the program all the same, and its form tells which
errors it can raise. Only the parameters of a function are declared without a node to name. -/
namespace Featherweight

/-- A name that stops the declarations stands in them twice, or once more after the old names. -/
theorem Bindings.two_le_count_of_declareAll {old new : Bindings} {x : Name}
    (h : (declareAll old new).2 = some x) : 2 ≤ (names old ++ names new).count x := by
  induction new generalizing old with
  | nil => simp [declareAll] at h
  | cons e new ih =>
    obtain ⟨y, v⟩ := e
    rw [declareAll] at h
    by_cases hy : y ∈ names old
    · rw [if_pos hy] at h
      cases h
      have hold : 0 < (names old).count x := List.count_pos_iff.2 hy
      simp only [names, List.map_cons, List.count_append, List.count_cons_self] at hold ⊢
      omega
    · rw [if_neg hy] at h
      simpa [names] using ih h

theorem Operator.apply_eq_error {op : Operator} {v w : Value} {cause : Cause}
    (h : op.apply v w = .error cause) :
    cause = .operands op v.kind w.kind ∨
      cause = .divisionByZero ∧ (op = .divide ∨ op = .mod) := by
  cases v with
  | int l =>
    cases w with
    | int r =>
      cases op with
      | divide | mod =>
        simp only [apply, compute] at h
        split at h <;> cases h
        exact .inr ⟨rfl, by simp⟩
      | _ => cases h
    | _ =>
      cases h
      exact .inl rfl
  | _ =>
    cases w <;>
    · cases h
      exact .inl rfl

namespace Expr

/-- The errors that a node raises by its own checks. -/
inductive MayRaise : Expr → Cause → Prop
  | operands (op l r k k') : MayRaise (.binary op l r) (.operands op k k')
  | divisionByZero {op} (l r) : op = .divide ∨ op = .mod → MayRaise (.binary op l r) .divisionByZero
  | condition (c a b k) : MayRaise (.cond c a b) (.condition k)
  | loopCondition (c b k) : MayRaise (.loop c b) (.loopCondition k)
  | redeclaration (x e) : MayRaise (.declare x e) (.duplicate x)
  | notCallable (f args k) : MayRaise (.call f args) (.notCallable k)
  | arity (f args n m) : MayRaise (.call f args) (.arity n m)

/-- The kinds of these errors. -/
def errorKinds : Expr → List ErrorKind
  | .binary op _ _ =>
    if op = .divide ∨ op = .mod then [.typeMismatch, .arithmetic] else [.typeMismatch]
  | .cond .. | .loop .. => [.typeMismatch]
  | .declare .. => [.duplicateDeclaration]
  | .call .. => [.notCallable, .arityMismatch]
  | _ => []

theorem MayRaise.kind_mem {e : Expr} {cause : Cause} (h : e.MayRaise cause) :
    cause.kind ∈ e.errorKinds := by
  cases h with
  | operands op =>
    rw [errorKinds]
    split <;> simp [Cause.kind]
  | divisionByZero l r hop => simp [errorKinds, hop, Cause.kind]
  | _ => simp [errorKinds, Cause.kind]

/-- What in a program answers for a failure: a print whose text cannot be written, the node that
the error is attached to, or, where none is, a function with a parameter that is listed twice. -/
inductive Accounts (p : Expr) : Failure → Prop
  | text {fs e} : p.Occurs fs (.print e) → Accounts p .digitLimit
  | node {fs e cause} : p.Occurs fs e → e.MayRaise cause → Accounts p (.error cause (some e))
  | parameter {fs ps b x} : p.Occurs fs (.function ps b) → 2 ≤ ps.count x →
      Accounts p (.error (.duplicate x) none)

end Expr

/-- The program answers for what a task raises whose node and closures come from it. -/
theorem Task.Raises.accounts {p : Expr} {task : Task} {f : Failure} {t : State} {fs}
    (h : task.Raises f t) (ho : p.Occurs fs task.program)
    (hclosure : ∀ g args ps b j u, task.program = .call g args →
      g.Evaluates task.scope task.state (.ok (.closure ps b j), u) →
      ∃ fs, p.Occurs fs (.function ps b)) : p.Accounts f := by
  cases h with
  | text => exact .text ho
  | @operands i op l r v w cause s t u _ _ hop =>
    rcases Operator.apply_eq_error hop with rfl | ⟨rfl, hdiv⟩
    · exact .node ho (.operands ..)
    · exact .node ho (.divisionByZero _ _ hdiv)
  | condition => exact .node ho (.condition ..)
  | loopCondition => exact .node ho (.loopCondition ..)
  | redeclaration => exact .node ho (.redeclaration ..)
  | notCallable => exact .node ho (.notCallable ..)
  | arity => exact .node ho (.arity ..)
  | @parameter i g args ps b j vs s t u x hg _ hl hx =>
    -- The node at hand is the call, but the parameters stand where the closure was made.
    obtain ⟨fs, hfunction⟩ := hclosure g args ps b j t rfl hg
    have hnames : Bindings.names (ps.zip vs) = ps := List.map_fst_zip (Nat.le_of_eq hl.symm)
    have hcount := Bindings.two_le_count_of_declareAll hx
    rw [hnames] at hcount
    exact .parameter hfunction hcount

open Invariant in
/-- When a program without closure literals fails in a fresh global scope, then a node of the
program raised the failure, in the state that the run ends in, and the program accounts for it:
the attached node occurs in the program and is of a form that raises such errors. Neither do
values fail that are asked for an integer or a bool, nor closures that are applied, nor would
anything else change if all was checked again where it is used. -/
theorem Expr.evaluates_provenance {p : Expr} {out : String} {f : Failure} {t : State}
    (hp : p.ClosureFree) (he : p.Evaluates 0 ⟨.fresh, out⟩ (.error f, t)) :
    p.Accounts f ∧
    (∀ cause e, f = .error cause (some e) → cause.kind ∈ e.errorKinds) ∧
    (∃ part fs, Task.Reaches ⟨0, p, ⟨.fresh, out⟩⟩ part ∧ part.Raises f t ∧
      p.Occurs fs part.program) ∧
    (∀ v node, f ≠ .error (.expectedInt v) node ∧ f ≠ .error (.expectedBool v) node) ∧
    (∀ expected found, f ≠ .error (.arity expected found) none) ∧
    ∀ broken fuel, p.recheck broken fuel 0 ⟨.fresh, out⟩ = p.eval fuel 0 ⟨.fresh, out⟩ := by
  have hI := sound_lexical hp
  obtain ⟨part, hreach, hraise⟩ := he.leads
  obtain ⟨hfresh, hstart⟩ := lexical_fresh p out
  obtain ⟨hgood, hpart⟩ := hI.reaches hreach hfresh hstart
  obtain ⟨fs, hoccurs, hnested⟩ := hpart
  have haccounts : p.Accounts f := by
    refine hraise.accounts hoccurs fun g args ps b j u hcall hg => ?_
    -- The value of the callee is a closure of the program, like every closure of the run.
    have hchild : (lexical p).Programs part.state part.scope g :=
      hI.children ⟨fs, hoccurs, hnested⟩ (by simp [hcall, Expr.children])
    obtain ⟨-, hv⟩ := hI.evaluates hgood hchild hg
    obtain ⟨fs, hfunction, -⟩ := hv _ rfl ps b j rfl
    exact ⟨fs, hfunction⟩
  refine ⟨haccounts, ?_, ⟨part, fs, hreach, hraise, hoccurs⟩, ?_, ?_, ?_⟩
  · rintro cause e rfl
    cases haccounts with
    | node _ hmay => exact hmay.kind_mem
  · intro v node
    constructor <;> rintro rfl <;> cases haccounts with | node _ hmay => cases hmay
  · rintro expected found rfl
    cases haccounts
  · intro broken fuel
    rw [recheck_eq_eval]

/-- A division inside of two functions, by the argument of the outer one. -/
def Expr.dividing (n : Int) : Expr :=
  .seq
    (.declare "divide"
      (.function ["y"] (.function ["x"] (.binary .divide (.var "x") (.var "y")))))
    (.call (.call (.var "divide") [int n]) [int 1])

theorem dividing_zero_provenance :
    ∃ t, (Expr.dividing 0).Evaluates 0 ⟨.fresh, ""⟩
        (.error (.error .divisionByZero (some (.binary .divide (.var "x") (.var "y")))), t) ∧
      ErrorKind.arithmetic ∈ (Expr.binary .divide (.var "x") (.var "y")).errorKinds ∧
      ∃ fs, (Expr.dividing 0).Occurs fs (.binary .divide (.var "x") (.var "y")) := by
  have he : (Expr.dividing 0).Evaluates 0 ⟨.fresh, ""⟩
      (.error (.error .divisionByZero (some (.binary .divide (.var "x") (.var "y")))), _) :=
    ⟨9, rfl⟩
  obtain ⟨haccounts, hkinds, -⟩ := Expr.evaluates_provenance (by decide) he
  refine ⟨_, he, hkinds _ _ rfl, ?_⟩
  cases haccounts with
  | node hoccurs _ => exact ⟨_, hoccurs⟩

end Featherweight
