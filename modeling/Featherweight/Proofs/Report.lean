import Featherweight.Eval.Fuel
import Featherweight.Proofs.WellFormed
import Featherweight.Session.Basic
import Featherweight.Text.Paint

/-! Reports of failing programs. A program that fails ends its run in the exit for errors, and the
next run starts as if nothing had happened, if the node that the error is attached to can be
written. If it cannot, because of an integer with too many digits, then the report stops at that
node: the run ends in no exit, and the error stays pending for the next one. -/
namespace Featherweight

namespace Reporter

/-- The line with the kind and the message of an error. -/
def errorLine (paint : String → String) (flags : DebugFlags) (cause : Cause) : String :=
  "[" ++ label paint flags cause.kind ++ "] " ++ cause.message ++ "\n"

/-- The line with the attached node, if there is one. -/
def nodeLine : Option Expr → String
  | none => ""
  | some e => "    in: " ++ e.render ++ "\n"

section
variable {paint : String → String} {flags : DebugFlags} {cause : Cause} {node : Option Expr}

theorem render_writable (h : node.all Expr.isWritable = true) :
    render paint flags (.ofCause cause node) true =
      ⟨errorLine paint flags cause ++ nodeLine node ++ trace flags (.ofCause cause node) true,
        true⟩ := by
  cases node with
  | none => simp [render, Diagnostic.ofCause, errorLine, nodeLine]
  | some e =>
    have he : e.isWritable = true := by simpa using h
    simp [render, Diagnostic.ofCause, Expr.text?, he, errorLine, nodeLine, String.append_assoc,
      -String.reduceAppend]

theorem render_unwritable (h : node.all Expr.isWritable = false) :
    render paint flags (.ofCause cause node) true = ⟨errorLine paint flags cause, false⟩ := by
  cases node with
  | none => cases h
  | some e =>
    have he : e.isWritable = false := by simpa using h
    simp [render, Diagnostic.ofCause, Expr.text?, he, errorLine]

end

end Reporter

namespace Session

/-- A run of a program comes to an end, with a reply and the session that it leaves. -/
def Runs (s : Session) (p : Expr) (r : Reply × Session) : Prop :=
  ∃ fuel, s.run fuel p = some r

/-- The session with its flags handed to the reporter, as a run starts. -/
def informed (s : Session) : Session :=
  { s with reporter := { s.reporter with flags := s.flags } }

/-- The session that a run leaves. -/
def after (s : Session) (heap : Heap) (pending : Bool) : Session :=
  { s with heap, reporter := { s.reporter with flags := s.flags, pending } }

/-- A run in one equation: the dump comes first, then the flag that forbids evaluation. -/
theorem run_eq (fuel : Nat) (s : Session) (p : Expr) :
    s.run fuel p =
      if !(dump s.flags p).complete then
        some (⟨.digitLimit, (dump s.flags p).text, ""⟩, s.informed)
      else if s.flags.noInterpret then some (⟨.exit 0, (dump s.flags p).text, ""⟩, s.informed)
      else
        (p.eval fuel s.globalScope ⟨s.heap, ""⟩).map fun (result, t) =>
          (s.after t.heap s.reporter.pending).conclude ((dump s.flags p).text ++ t.stdout) result :=
  rfl

/-- How a run ends: a dump that cannot be written stops it, a flag stops it before evaluation, or
it concludes as evaluation says. -/
theorem runs_iff {s : Session} {p : Expr} {r : Reply × Session} :
    s.Runs p r ↔
      (dump s.flags p).complete = false ∧
        r = (⟨.digitLimit, (dump s.flags p).text, ""⟩, s.informed) ∨
      (dump s.flags p).complete = true ∧ s.flags.noInterpret = true ∧
        r = (⟨.exit 0, (dump s.flags p).text, ""⟩, s.informed) ∨
      (dump s.flags p).complete = true ∧ s.flags.noInterpret = false ∧
        ∃ result t, p.Evaluates s.globalScope ⟨s.heap, ""⟩ (result, t) ∧
          r = (s.after t.heap s.reporter.pending).conclude ((dump s.flags p).text ++ t.stdout)
            result := by
  unfold Runs run
  cases hd : (dump s.flags p).complete with
  | false => simpa [hd, informed] using eq_comm
  | true =>
    cases hn : s.flags.noInterpret with
    | true => simpa [hd, hn, informed] using eq_comm
    | false =>
      simp only [hd, hn, after, Bool.not_true, Bool.false_eq_true, if_false, false_and,
        true_and, false_or, Option.map_eq_some_iff, Expr.Evaluates, Prod.exists, reduceCtorEq]
      constructor
      · rintro ⟨fuel, result, t, he, rfl⟩
        exact ⟨result, t, ⟨fuel, he⟩, rfl⟩
      · rintro ⟨result, t, ⟨fuel, he⟩, rfl⟩
        exact ⟨fuel, result, t, he, rfl⟩

/-- A run ends in one way at most. -/
theorem runs_iff_of_evaluates {s : Session} {p : Expr} {result : Except Failure Value} {t : State}
    (hdump : s.flags.dumpAst = false) (hno : s.flags.noInterpret = false)
    (he : p.Evaluates s.globalScope ⟨s.heap, ""⟩ (result, t)) (r : Reply × Session) :
    s.Runs p r ↔ r = (s.after t.heap s.reporter.pending).conclude t.stdout result := by
  have hd : dump s.flags p = ⟨"", true⟩ := by simp [dump, hdump]
  rw [runs_iff, hd]
  constructor
  · rintro (⟨⟨⟩, -⟩ | ⟨-, hyes, -⟩ | ⟨-, -, result', t', he', rfl⟩)
    · exact absurd hyes (by simp [hno])
    · cases he.unique he'
      simp
  · rintro rfl
    exact .inr (.inr ⟨rfl, hno, result, t, he, by simp⟩)

/-- After a checkpoint no error is pending. -/
theorem checkpoint_eq (s : Session) (o : Outcome) (out err : String) :
    s.checkpoint o out err =
      (⟨if s.reporter.pending then .exit 65 else o, out, err⟩,
        { s with reporter := { s.reporter with pending := false } }) := by
  obtain ⟨heap, globalScope, flags, _, _, pending⟩ := s
  cases pending <;> rfl

/-- A run that comes to a value gives it, unless an error was pending. -/
theorem conclude_value (s : Session) (heap : Heap) (pending : Bool) (out : String) (v : Value) :
    (s.after heap pending).conclude out (.ok v) =
      (⟨if pending then .exit 65 else .value v, out, ""⟩, s.after heap false) :=
  checkpoint_eq ..

/-- With a report that is whole, a failing run ends in the exit for errors, and nothing stays
pending; with one that is not, it is the other way round. -/
theorem conclude_failed (s : Session) (out : String) (cause : Cause) (node : Option Expr) :
    s.conclude out (.error (.error cause node)) =
      (⟨if node.all Expr.isWritable then .exit 65 else .digitLimit, out,
        (Reporter.render s.reporter.paint s.reporter.flags (.ofCause cause node) true).text⟩,
        { s with reporter := { s.reporter with pending := !node.all Expr.isWritable } }) := by
  have hcomplete :
      (Reporter.render s.reporter.paint s.reporter.flags (.ofCause cause node) true).complete =
        node.all Expr.isWritable := Reporter.render_complete ..
  cases hw : node.all Expr.isWritable <;>
    simp [conclude, Reporter.report, checkpoint, Reporter.checkpoint, Reporter.errorExit,
      hcomplete, hw]

theorem conclude_error (s : Session) (heap : Heap) (pending : Bool) (out : String) (cause : Cause)
    (node : Option Expr) :
    (s.after heap pending).conclude out (.error (.error cause node)) =
      (⟨if node.all Expr.isWritable then .exit 65 else .digitLimit, out,
        (Reporter.render s.reporter.paint s.flags (.ofCause cause node) true).text⟩,
        s.after heap (!node.all Expr.isWritable)) :=
  conclude_failed ..

/-- A reported error is pending, even if its report is not whole. -/
theorem step_report (fuel : Nat) (s : Session) (d : Diagnostic) :
    s.step fuel (.report d) =
      some (⟨if d.isWritable then .done else .digitLimit, "",
        (Reporter.render s.reporter.paint s.reporter.flags d false).text⟩,
        { s with reporter := { s.reporter with pending := true } }) := by
  rw [← Reporter.render_complete s.reporter.paint s.reporter.flags d false]
  rfl

end Session

/-- A program fails in a session that dumps no trees and evaluates. If the attached node can be
written, then the run ends in the exit for errors, after the error line, the line of the node and
the trace, and nothing is pending: the next run that comes to a value gives that value. If it
cannot, then the error line is all that is written, the run does not end in an exit, and the error
stays pending: the next run that comes to a value ends in the exit. -/
theorem Session.runs_of_error {s : Session} {p : Expr} {cause : Cause} {node : Option Expr}
    {t : State} (hdump : s.flags.dumpAst = false) (hno : s.flags.noInterpret = false)
    (he : p.Evaluates s.globalScope ⟨s.heap, ""⟩ (.error (.error cause node), t)) :
    (node.all Expr.isWritable = true →
      (∀ r, s.Runs p r ↔ r =
        (⟨.exit 65, t.stdout, Reporter.errorLine s.reporter.paint s.flags cause ++
          Reporter.nodeLine node ++ Reporter.trace s.flags (.ofCause cause node) true⟩,
          s.after t.heap false)) ∧
      ∀ q v u, q.Evaluates s.globalScope ⟨t.heap, ""⟩ (.ok v, u) → ∀ r,
        (s.after t.heap false).Runs q r ↔ r = (⟨.value v, u.stdout, ""⟩, s.after u.heap false)) ∧
    (node.all Expr.isWritable = false →
      (∀ r, s.Runs p r ↔ r =
        (⟨.digitLimit, t.stdout, Reporter.errorLine s.reporter.paint s.flags cause⟩,
          s.after t.heap true)) ∧
      ∀ q v u, q.Evaluates s.globalScope ⟨t.heap, ""⟩ (.ok v, u) → ∀ r,
        (s.after t.heap true).Runs q r ↔ r = (⟨.exit 65, u.stdout, ""⟩, s.after u.heap false)) := by
  have next : ∀ pending q v u, q.Evaluates s.globalScope ⟨t.heap, ""⟩ (.ok v, u) → ∀ r,
      (s.after t.heap pending).Runs q r ↔
        r = (⟨if pending then .exit 65 else .value v, u.stdout, ""⟩, s.after u.heap false) := by
    intro pending q v u hq r
    rw [← s.conclude_value u.heap pending]
    exact runs_iff_of_evaluates (s := s.after t.heap pending) hdump hno hq r
  refine ⟨fun hw => ⟨fun r => ?_, next false⟩, fun hw => ⟨fun r => ?_, next true⟩⟩
  · rw [runs_iff_of_evaluates hdump hno he, conclude_error, Reporter.render_writable hw, hw]
    rfl
  · rw [runs_iff_of_evaluates hdump hno he, conclude_error, Reporter.render_unwritable hw, hw]
    rfl

/-- Division by zero fails at a node that can be written. -/
theorem divideByZero_runs :
    (Session.new Text.boldRed .none).Runs Sample.divideByZeroProgram
      (⟨.exit 65, "",
        "[\x1b[1m\x1b[31mFwjsArithmeticError\x1b[0m] Division by zero.\n    in: (/ 10 0)\n"⟩,
        (Session.new Text.boldRed .none).after .fresh false) := by
  have he : Sample.divideByZeroProgram.Evaluates (Session.new Text.boldRed .none).globalScope
      ⟨(Session.new Text.boldRed .none).heap, ""⟩
      (.error (.error .divisionByZero (some Sample.divideByZeroProgram)), _) := ⟨2, rfl⟩
  exact (((Session.runs_of_error rfl rfl he).1 (by decide +kernel)).1 _).2 rfl

/-- A sum that fails at a node with an integer of too many digits. -/
def Expr.unwritableSum : Expr :=
  .binary .add (.literal (.int Text.unwritableMagnitude)) (.literal (.bool true))

theorem Expr.isWritable_unwritableSum : Expr.unwritableSum.isWritable = false := by
  have hn : Text.isWritable Text.unwritableMagnitude = false := by
    rw [Text.isWritable, Int.natAbs_natCast]
    exact decide_eq_false (Nat.lt_irrefl _)
  rw [unwritableSum, isWritable, isWritable, Value.isWritable, hn, Bool.false_and]

/-- Not every failing program is reported in full and ends its own run only: after the sum of an
integer of 4301 digits and a bool, the error stays pending, and it is the next run that ends in
the exit. -/
theorem unwritableSum_not_reported :
    (Session.new Text.boldRed .none).Runs .unwritableSum
      (⟨.digitLimit, "", Reporter.errorLine Text.boldRed .none (.operands .add .int .bool)⟩,
        (Session.new Text.boldRed .none).after .fresh true) ∧
    ((Session.new Text.boldRed .none).after .fresh true).Runs (.int 1)
      (⟨.exit 65, "", ""⟩, (Session.new Text.boldRed .none).after .fresh false) ∧
    ¬ ∀ (s : Session) (p : Expr) (cause : Cause) (node : Option Expr) (t : State),
      s.reporter.pending = false → s.flags.dumpAst = false → s.flags.noInterpret = false →
      p.Evaluates s.globalScope ⟨s.heap, ""⟩ (.error (.error cause node), t) →
      ∃ r, s.Runs p r ∧ r.1.outcome = .exit 65 ∧ r.2.reporter.pending = false := by
  have he : Expr.unwritableSum.Evaluates (Session.new Text.boldRed .none).globalScope
      ⟨(Session.new Text.boldRed .none).heap, ""⟩
      (.error (.error (.operands .add .int .bool) (some .unwritableSum)), ⟨.fresh, ""⟩) := ⟨2, rfl⟩
  have hone : (Expr.int 1).Evaluates 0 ⟨.fresh, ""⟩ (.ok (.int 1), ⟨.fresh, ""⟩) := ⟨1, rfl⟩
  have hw : (some Expr.unwritableSum).all Expr.isWritable = false := by
    rw [Option.all_some, Expr.isWritable_unwritableSum]
  have hruns := Session.runs_iff_of_evaluates (s := .new Text.boldRed .none) rfl rfl he
  have hnext := Session.runs_iff_of_evaluates
    (s := (Session.new Text.boldRed .none).after .fresh true) rfl rfl hone
  rw [show (Session.new Text.boldRed .none).reporter.pending = false from rfl,
    Session.conclude_error, Reporter.render_unwritable hw, hw] at hruns
  refine ⟨(hruns _).2 rfl, (hnext _).2 rfl, fun h => ?_⟩
  obtain ⟨r, hr, hexit, -⟩ := h (.new Text.boldRed .none) .unwritableSum _ _ _ rfl rfl rfl he
  rw [(hruns r).1 hr] at hexit
  cases hexit

end Featherweight
