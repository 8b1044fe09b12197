import Featherweight.Debug.Flags
import Featherweight.Error

/-! The reporter writes errors and remembers that there was one until the next checkpoint. -/
namespace Featherweight

/-- The flags that reports follow, and whether an error was reported since the last
checkpoint that found one. -/
structure Reporter where
  /-- How the kind of an error is set off. It is up to the place that the reports go to. -/
  paint : String → String
  flags : DebugFlags
  pending : Bool

/-- A text, and whether it is whole: writing stops before an integer with too many digits. -/
structure Written where
  text : String
  complete : Bool
  deriving DecidableEq

namespace Reporter

/-- The exit code after a reported error. -/
def errorExit : Nat := 65

/-- The kind of an error as reports show it: set off, unless reports are reduced. -/
def label (paint : String → String) (flags : DebugFlags) (kind : ErrorKind) : String :=
  if flags.reducedErrorReporting then kind.name else paint kind.name

/-- The trace of an error, if it is asked for. One that was never raised has no calls to show. -/
def trace (flags : DebugFlags) (d : Diagnostic) (raised : Bool) : String :=
  if flags.backtrace then
    (if raised then "Traceback (most recent call last):\n" else "") ++
      "pyfwjs.utilities.error." ++ d.kind.name ++ ": " ++ d.summary ++ "\n"
  else ""

/-- The report of an error: its kind and message, the attached node, the trace. -/
def render (paint : String → String) (flags : DebugFlags) (d : Diagnostic) (raised : Bool) :
    Written :=
  let first := "[" ++ label paint flags d.kind ++ "] " ++ d.message ++ "\n"
  match d.node with
  | none => ⟨first ++ trace flags d raised, true⟩
  | some node =>
    match node.text? with
    | none => ⟨first, false⟩
    | some text => ⟨first ++ "    in: " ++ text ++ "\n" ++ trace flags d raised, true⟩

/-- Writes the report of an error and remembers it. -/
def report (r : Reporter) (d : Diagnostic) (raised : Bool) : Written × Reporter :=
  (render r.paint r.flags d raised, { r with pending := true })

/-- Asks for the exit code that a pending error calls for, and forgets the error. -/
def checkpoint (r : Reporter) : Option Nat × Reporter :=
  if r.pending then (some errorExit, { r with pending := false }) else (none, r)

theorem render_complete (paint : String → String) (flags : DebugFlags) (d : Diagnostic)
    (raised : Bool) : (render paint flags d raised).complete = d.isWritable := by
  unfold render Diagnostic.isWritable
  cases d.node with
  | none => rfl
  | some node => cases h : node.isWritable <;> simp [Expr.text?, h]

theorem checkpoint_pending (r : Reporter) : r.checkpoint.2.pending = false := by
  cases h : r.pending <;> simp [checkpoint, h]

end Reporter

end Featherweight
