import Featherweight.CommandLine.Help
import Featherweight.CommandLine.Settings
import Featherweight.Session.Basic

/-! What the program does with its arguments. -/
namespace Featherweight.CommandLine

/-- How the program ends, and all that it writes. -/
structure Exit where
  code : Nat
  stdout : String
  stderr : String
  deriving DecidableEq

/-- Why settings that could be read are refused. -/
inductive SettingsError where
  /-- The recursion limit does not fit into 32 bits. -/
  | limitTooLarge
  | limitNotPositive
  /-- Nothing was given for the recursion limit. -/
  | limitMissing
  /-- Nothing was given for a debugging flag. -/
  | flagMissing
  deriving DecidableEq

def SettingsError.message : SettingsError → String
  | limitTooLarge => "Python int too large to convert to C int"
  | limitNotPositive => "recursion limit must be greater or equal than 1"
  | limitMissing => "'list' object cannot be interpreted as an integer"
  | flagMissing => "unhashable type: 'list'"

/-- Checks a recursion limit, which must fit into 32 bits with a sign. One that is accepted has
no effect, since how deep the host can recurse is left out here. The host also refuses a small
positive limit, one that is at or below the depth of its open calls; this check accepts it. -/
def checkLimit : Option Int → Except SettingsError Unit
  | none => .error .limitMissing
  | some n =>
    if n < -2147483648 ∨ 2147483648 ≤ n then .error .limitTooLarge
    else if n < 1 then .error .limitNotPositive
    else .ok ()

/-- The debugging flags, if each use of the option was given one. -/
def checkFlags (flags : List (Option DebugFlag)) : Except SettingsError DebugFlags :=
  match flags.mapM id with
  | some flags => .ok (.ofList flags)
  | none => .error .flagMissing

theorem checkFlags_map_some (flags : List DebugFlag) :
    checkFlags (flags.map some) = .ok (.ofList flags) := by
  have h : (flags.map some).mapM id = some flags := by
    induction flags with
    | nil => rfl
    | cons flag flags ih => simp [ih]
  simp [checkFlags, h]

theorem checkFlags_eq_error_iff (flags : List (Option DebugFlag)) :
    checkFlags flags = .error .flagMissing ↔ none ∈ flags := by
  have h : flags.mapM id = none ↔ none ∈ flags := by
    induction flags with
    | nil => simp
    | cons flag flags ih =>
      cases flag with
      | none => simp
      | some flag => cases h : flags.mapM id <;> simp_all
  unfold checkFlags
  split <;> simp_all

/-- The debugging flags of settings that are not refused. The recursion limit is checked first. -/
def Settings.check (settings : Settings) : Except SettingsError DebugFlags := do
  settings.recursionLimit.forM checkLimit
  checkFlags settings.debug

/-- The exit code after a mistake in the arguments. -/
def usageExit : Nat := 2

/-- The exit code when no text can be made of a value. -/
def failureExit : Nat := 1

/-- The end after a mistake in the arguments. -/
def Exit.ofUsageError (e : UsageError) : Exit :=
  ⟨usageExit, "", usage ++ programName ++ ": error: " ++ e.message ++ "\n"⟩

/-- Continues with another end, after some output. -/
def Exit.after (stdout stderr : String) (e : Exit) : Exit :=
  { e with stdout := stdout ++ e.stdout, stderr := stderr ++ e.stderr }

/-- The line about the value of a sample. -/
def valueLine (s : Sample) (text : String) : String :=
  "'" ++ s.source ++ "' evaluates to " ++ text ++ "\n"

/-- Runs samples one after another, each in a fresh global scope, until one ends in an exit code
other than zero. -/
def runSamples (fuel : Nat) (session : Session) : List Sample → Option Exit
  | [] => some ⟨0, "", ""⟩
  | s :: rest =>
    (session.reset.run fuel s.program).bind fun (reply, session) =>
      match reply.outcome with
      | .exit 0 => (runSamples fuel session rest).map (.after reply.stdout reply.stderr)
      | .exit code => some ⟨code, reply.stdout, reply.stderr⟩
      | .value v =>
        match v.text? with
        | some text =>
          (runSamples fuel session rest).map
            (.after (reply.stdout ++ valueLine s text) reply.stderr)
        | none => some ⟨failureExit, reply.stdout, reply.stderr⟩
      | _ => some ⟨failureExit, reply.stdout, reply.stderr⟩

/-- The samples with the given names, or the first name that no sample has. -/
def findSamples (names : List String) : Except UsageError (List Sample) :=
  names.mapM fun name =>
    match Sample.find? name with
    | some s => Except.ok s
    | none => Except.error (.unknownSample name)

/-- The sample that runs when none is named. -/
def defaultSample : String := "declare"

/-- Does what the settings ask for. -/
def Settings.run (paint : String → String) (fuel : Nat) (settings : Settings) :
    Option (Except SettingsError Exit) :=
  if settings.list then some (.ok ⟨0, sampleList, ""⟩)
  else
    let names := if settings.samples.isEmpty then [defaultSample] else settings.samples
    match findSamples names with
    | .error e => some (.ok (.ofUsageError e))
    | .ok samples =>
      match settings.check with
      | .error e => some (.error e)
      | .ok flags => (runSamples fuel (.new paint flags) samples).map .ok

/-- Does what the arguments ask for. No result means that the fuel did not suffice. -/
def run (paint : String → String) (fuel : Nat) (arguments : List String) :
    Option (Except SettingsError Exit) :=
  match Settings.ofArguments arguments with
  | .ok settings => settings.run paint fuel
  | .error .help => some (.ok ⟨0, help, ""⟩)
  | .error (.usage e) => some (.ok (.ofUsageError e))

end Featherweight.CommandLine
