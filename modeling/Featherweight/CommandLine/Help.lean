import Featherweight.Debug.Flags
import Featherweight.Sample

/-! Texts of the command line: its usage, its help, and the list of samples. -/
namespace Featherweight.CommandLine

/-- The name of the program. -/
def programName : String := "pyfwjs"

/-- The option that takes a debugging flag, with all that it takes. -/
def debugUsage : String :=
  "--dbg \x7b" ++ ",".intercalate (DebugFlag.all.map DebugFlag.name) ++ "\x7d"

/-- How the program is called. -/
def usage : String :=
  "usage: " ++ programName ++ " [-h] [--list]\n" ++
    "              [" ++ debugUsage ++ "]\n" ++
    "              [--recursion-limit N]\n" ++
    "              [SAMPLE ...]\n"

/-- What the program and its arguments do. -/
def help : String :=
  usage ++ "\n" ++
    "Evaluator for FWJS, a featherweight JavaScript\n\n" ++
    "positional arguments:\n" ++
    "  SAMPLE                sample programs to evaluate, in order (default:\n" ++
    "                        declare)\n\n" ++
    "options:\n" ++
    "  -h, --help            show this help message and exit\n" ++
    "  --list                list the available sample programs and exit\n" ++
    "  " ++ debugUsage ++ "\n" ++
    "                        pyfwjs debugging options, multiple --dbg arguments can\n" ++
    "                        be passed\n" ++
    "  --recursion-limit N   raise the host recursion limit for deeply nested\n" ++
    "                        programs\n"

/-- The width of the column of names in the list of samples. -/
def nameWidth : Nat := 16

/-- A sample in the list: its name in a column, then its text. -/
def sampleLine (s : Sample) : String :=
  s.name ++ String.ofList (List.replicate (nameWidth - s.name.length) ' ') ++ s.source ++ "\n"

/-- All samples, one per line. -/
def sampleList : String :=
  String.join (Sample.all.map sampleLine)

end Featherweight.CommandLine
