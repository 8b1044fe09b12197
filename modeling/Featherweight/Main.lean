import Featherweight.CommandLine.Run
import Featherweight.Text.Paint

/-! The program: it hands its arguments to the command line and writes what that gives. -/
namespace Featherweight

/-- Whether reports are in colour: as the environment asks, or else if there is a terminal. -/
def inColor : IO Bool := do
  let isSet (name : String) : IO Bool := do
    return !((← IO.getEnv name).getD "").isEmpty
  if ← isSet "ANSI_COLORS_DISABLED" then return false
  if ← isSet "NO_COLOR" then return false
  if ← isSet "FORCE_COLOR" then return true
  if (← IO.getEnv "TERM") == some "dumb" then return false
  (← IO.getStdout).isTty

/-- Far more fuel than any sample needs. -/
def mainFuel : Nat := Nat.pow 2 32

/-- The code of an end by an uncaught failure. -/
def uncaughtExit : UInt32 := 1

def runMain (arguments : List String) : IO UInt32 := do
  let paint := if ← inColor then Text.boldRed else id
  match CommandLine.run paint mainFuel arguments with
  | none => return uncaughtExit
  | some (.error e) =>
    IO.eprintln e.message
    return uncaughtExit
  | some (.ok ⟨code, stdout, stderr⟩) =>
    IO.print stdout
    IO.eprint stderr
    return code.toUInt32

end Featherweight

def main (arguments : List String) : IO UInt32 :=
  Featherweight.runMain arguments
