import Featherweight.Debug.Dump
import Featherweight.Eval.Basic
import Featherweight.Sample
import Featherweight.Session.Reporter

/-! Sessions: programs that run one after another in one global scope, with reports of their
errors. -/
namespace Featherweight

/-- What lasts from one step to the next. -/
structure Session where
  heap : Heap
  globalScope : Nat
  flags : DebugFlags
  reporter : Reporter

/-- How a step ends. -/
inductive Outcome where
  | value (v : Value)
  | done
  | exit (code : Nat)
  /-- A text was needed of an integer with too many digits. -/
  | digitLimit
  | unknownSample (name : String)

/-- How a step ends, and what it writes. -/
structure Reply where
  outcome : Outcome
  stdout : String
  stderr : String

/-- What can be asked of a session. -/
inductive Step where
  | run (program : Expr)
  | sample (name : String)
  | reset
  | setFlags (flags : DebugFlags)
  /-- The next run gives the reporter the flags of the session again. -/
  | setReporterFlags (flags : DebugFlags)
  /-- Reports an error that was never raised. -/
  | report (d : Diagnostic)
  | checkpoint

namespace Session

/-- A session over the scopes of a heap, with a global scope of its own. -/
def start (paint : String → String) (heap : Heap) (flags : DebugFlags) : Session :=
  { heap := heap.newScope none
    globalScope := heap.size
    flags
    reporter := ⟨paint, flags, false⟩ }

/-- A new session. -/
def new (paint : String → String) (flags : DebugFlags) : Session :=
  start paint .empty flags

/-- The bindings that the next run starts with. -/
def globals (s : Session) : Bindings :=
  s.heap.bindings s.globalScope

/-- Continues with a new global scope. The old one stays for the closures made in it. -/
def reset (s : Session) : Session :=
  { s with heap := s.heap.newScope none, globalScope := s.heap.size }

/-- What a run writes about the tree of its program. -/
def dump (flags : DebugFlags) (program : Expr) : Written :=
  if flags.dumpAst then
    match program.text? with
    | none => ⟨Dump.heading "AST", false⟩
    | some text => ⟨Dump.render "AST" [text], true⟩
  else ⟨"", true⟩

/-- Ends a step in the exit that a pending error calls for, or else as given. -/
def checkpoint (s : Session) (otherwise : Outcome) (stdout stderr : String) : Reply × Session :=
  match s.reporter.checkpoint with
  | (some code, reporter) => (⟨.exit code, stdout, stderr⟩, { s with reporter })
  | (none, reporter) => (⟨otherwise, stdout, stderr⟩, { s with reporter })

/-- Ends a step whose program has come to a result. A failure that is no error of the program
passes unreported. -/
def conclude (s : Session) (stdout : String) : Except Failure Value → Reply × Session
  | .ok v => s.checkpoint (.value v) stdout ""
  | .error .digitLimit => (⟨.digitLimit, stdout, ""⟩, s)
  | .error (.error cause node) =>
    let (written, reporter) := s.reporter.report (.ofCause cause node) true
    if written.complete then { s with reporter }.checkpoint .done stdout written.text
    else (⟨.digitLimit, stdout, written.text⟩, { s with reporter })

/-- Evaluates a program in the global scope. No reply means that the fuel did not suffice. -/
def run (fuel : Nat) (s : Session) (program : Expr) : Option (Reply × Session) :=
  let s := { s with reporter := { s.reporter with flags := s.flags } }
  let dumped := dump s.flags program
  if !dumped.complete then some (⟨.digitLimit, dumped.text, ""⟩, s)
  else if s.flags.noInterpret then some (⟨.exit 0, dumped.text, ""⟩, s)
  else
    (program.eval fuel s.globalScope ⟨s.heap, ""⟩).map fun (result, state) =>
      { s with heap := state.heap }.conclude (dumped.text ++ state.stdout) result

/-- One step of a session. -/
def step (fuel : Nat) (s : Session) : Step → Option (Reply × Session)
  | .run program => s.run fuel program
  | .sample name =>
    match Sample.find? name with
    | none => some (⟨.unknownSample name, "", ""⟩, s)
    | some sample => s.run fuel sample.program
  | .reset => some (⟨.done, "", ""⟩, s.reset)
  | .setFlags flags => some (⟨.done, "", ""⟩, { s with flags })
  | .setReporterFlags flags =>
    some (⟨.done, "", ""⟩, { s with reporter := { s.reporter with flags } })
  | .report d =>
    let (written, reporter) := s.reporter.report d false
    some (⟨if written.complete then .done else .digitLimit, "", written.text⟩,
      { s with reporter })
  | .checkpoint => some (s.checkpoint .done "" "")

/-- The replies to several steps, in order, and the session they leave. -/
def steps (fuel : Nat) (s : Session) : List Step → Option (List Reply × Session)
  | [] => some ([], s)
  | step :: rest =>
    (s.step fuel step).bind fun (reply, s) =>
      (s.steps fuel rest).map fun (replies, s) => (reply :: replies, s)

end Session

end Featherweight
