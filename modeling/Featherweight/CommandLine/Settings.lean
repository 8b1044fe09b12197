import Featherweight.CommandLine.Token
import Featherweight.Debug.Flags
import Featherweight.Text.Integer
import Featherweight.Text.Quoted

/-! Settings: what the arguments of the command line ask for. They are read from left to right,
and the first mistake or call for help ends the reading. -/
namespace Featherweight.CommandLine

/-- Mistakes in the arguments. -/
inductive UsageError where
  | ignoredArgument (s : Switch) (text : String)
  | missingArgument (s : Switch)
  | invalidChoice (s : Switch) (text : String)
  | invalidInteger (s : Switch) (text : String)
  | unrecognized (arguments : List String)
  | unknownSample (name : String)
  deriving DecidableEq

namespace UsageError

/-- A mistake that concerns one option. -/
def about (s : Switch) (text : String) : String :=
  "argument " ++ s.title ++ ": " ++ text

/-- The names that can be chosen from. -/
def choices : String :=
  ", ".intercalate (DebugFlag.all.map fun flag => Text.quoted flag.name)

def message : UsageError → String
  | ignoredArgument s text => about s ("ignored explicit argument " ++ Text.quoted text)
  | missingArgument s => about s "expected one argument"
  | invalidChoice s text =>
    about s ("invalid choice: " ++ Text.quoted text ++ " (choose from " ++ choices ++ ")")
  | invalidInteger s text => about s ("invalid int value: " ++ Text.quoted text)
  | unrecognized arguments => "unrecognized arguments: " ++ " ".intercalate arguments
  | unknownSample name => "unknown sample '" ++ name ++ "' (see --list)"

end UsageError

/-- Why no settings are read. -/
inductive Stop where
  | help
  | usage (e : UsageError)
  deriving DecidableEq

/-- What the arguments ask for. An option that is given nothing for its argument has an entry all
the same. -/
structure Settings where
  samples : List String
  list : Bool
  /-- What each use of the option was given. -/
  debug : List (Option DebugFlag)
  /-- What the last use of the option was given, if there is one. -/
  recursionLimit : Option (Option Int)

/-- Samples come from one unbroken run of plain arguments. -/
inductive SampleRun where
  | ahead
  | here
  | over
  deriving DecidableEq

/-- What has been read so far. -/
structure Reading where
  settings : Settings
  samples : SampleRun
  unrecognized : List String

namespace Reading

def start : Reading :=
  ⟨⟨[], false, [], none⟩, .ahead, []⟩

/-- An option ends the run of samples, if it has begun. -/
def interrupt (r : Reading) : Reading :=
  match r.samples with
  | .here => { r with samples := .over }
  | _ => r

/-- Nothing can be done with an argument. -/
def reject (r : Reading) (text : String) : Reading :=
  { r with unrecognized := r.unrecognized ++ [text] }

/-- A plain argument that no option takes. -/
def plain (r : Reading) (text : String) : Reading :=
  match r.samples with
  | .over => r.reject text
  | _ =>
    { r with
      samples := .here
      settings := { r.settings with samples := r.settings.samples ++ [text] } }

/-- The separator belongs to the run of samples and is dropped there. -/
def separator (r : Reading) : Reading :=
  match r.samples with
  | .over => r.reject Token.separatorText
  | _ => { r with samples := .here }

def list (r : Reading) : Reading :=
  { r with settings := { r.settings with list := true } }

/-- The debugging flag that an argument names. -/
def flag (text : String) : Except Stop DebugFlag :=
  match DebugFlag.ofName? text with
  | some flag => .ok flag
  | none => .error (.usage (.invalidChoice .debug text))

/-- The recursion limit that an argument is. -/
def limit (text : String) : Except Stop Int :=
  match Text.readInteger? text with
  | some n => .ok n
  | none => .error (.usage (.invalidInteger .recursionLimit text))

/-- One more debugging flag, or nothing in its place. -/
def debug (r : Reading) (text : Option String) : Except Stop Reading := do
  let flag ← text.mapM flag
  return { r with settings := { r.settings with debug := r.settings.debug ++ [flag] } }

/-- The recursion limit, or nothing in its place; the last one counts. -/
def recursionLimit (r : Reading) (text : Option String) : Except Stop Reading := do
  let limit ← text.mapM limit
  return { r with settings := { r.settings with recursionLimit := some limit } }

/-- What an assigned text gives to an option that takes an argument: the separator is dropped here
too and leaves nothing. -/
def given (text : String) : Option String :=
  if text = Token.separatorText then none else some text

/-- Reads the remaining tokens. -/
def read (r : Reading) : List Token → Except Stop Reading
  | [] => .ok r
  | .plain text :: rest => read (r.plain text) rest
  | .separator :: rest => read r.separator rest
  | .unknown text :: rest => read (r.interrupt.reject text) rest
  | .switch .help :: _ => .error .help
  | .switch .list :: rest => read r.interrupt.list rest
  | .switch .debug :: .plain text :: rest => do read (← r.interrupt.debug (some text)) rest
  | .switch .recursionLimit :: .plain text :: rest => do
    read (← r.interrupt.recursionLimit (some text)) rest
  | .switch s :: _ => .error (.usage (.missingArgument s))
  | .assigned .debug text :: rest => do read (← r.interrupt.debug (given text)) rest
  | .assigned .recursionLimit text :: rest => do
    read (← r.interrupt.recursionLimit (given text)) rest
  | .assigned s text :: _ => .error (.usage (.ignoredArgument s text))

/-- The settings, unless something was rejected. -/
def finish (r : Reading) : Except Stop Settings :=
  if r.unrecognized.isEmpty then .ok r.settings
  else .error (.usage (.unrecognized r.unrecognized))

end Reading

/-- The settings that the arguments ask for. -/
def Settings.ofArguments (arguments : List String) : Except Stop Settings := do
  (← Reading.start.read (Token.ofArguments arguments)).finish

end Featherweight.CommandLine
