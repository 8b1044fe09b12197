/-! Debugging flags. A set of flags is a record with a field per flag, so it has no order and no
repetitions. -/
namespace Featherweight

inductive DebugFlag where
  /-- Show the tree of a program before it runs. -/
  | dumpAst
  /-- Stop before a program runs. -/
  | noInterpret
  /-- Report errors without colour. -/
  | reducedErrorReporting
  /-- Report where an error was raised. -/
  | backtrace
  deriving DecidableEq

namespace DebugFlag

def all : List DebugFlag :=
  [.dumpAst, .noInterpret, .reducedErrorReporting, .backtrace]

theorem mem_all (flag : DebugFlag) : flag ∈ all := by
  cases flag <;> decide

def name : DebugFlag → String
  | dumpAst => "DUMP_AST"
  | noInterpret => "NO_INTERPRET"
  | reducedErrorReporting => "REDUCED_ERROR_REPORTING"
  | backtrace => "BACKTRACE"

/-- The weight of the flag in the number of a set. -/
def bit : DebugFlag → Nat
  | dumpAst => 1
  | noInterpret => 2
  | reducedErrorReporting => 4
  | backtrace => 8

/-- The flag with the given name. -/
def ofName? (s : String) : Option DebugFlag :=
  all.find? fun flag => flag.name == s

theorem ofName?_name (flag : DebugFlag) : ofName? flag.name = some flag := by
  cases flag <;> decide

end DebugFlag

/-- A set of flags. -/
@[ext] structure DebugFlags where
  dumpAst : Bool
  noInterpret : Bool
  reducedErrorReporting : Bool
  backtrace : Bool
  deriving DecidableEq

namespace DebugFlags

def none : DebugFlags := ⟨false, false, false, false⟩

def contains (flags : DebugFlags) : DebugFlag → Bool
  | .dumpAst => flags.dumpAst
  | .noInterpret => flags.noInterpret
  | .reducedErrorReporting => flags.reducedErrorReporting
  | .backtrace => flags.backtrace

def insert (flags : DebugFlags) : DebugFlag → DebugFlags
  | .dumpAst => { flags with dumpAst := true }
  | .noInterpret => { flags with noInterpret := true }
  | .reducedErrorReporting => { flags with reducedErrorReporting := true }
  | .backtrace => { flags with backtrace := true }

def ofList (flags : List DebugFlag) : DebugFlags :=
  flags.foldl insert none

/-- The flags of a set, in the order of their declaration. -/
def toList (flags : DebugFlags) : List DebugFlag :=
  DebugFlag.all.filter flags.contains

/-- The number of a set: the sum of the weights of its flags. -/
def bits (flags : DebugFlags) : Nat :=
  (flags.toList.map DebugFlag.bit).foldr (· + ·) 0

/-- The set of the flags with the given names, or the first name that no flag has. -/
def ofNames (names : List String) : Except String DebugFlags := do
  let flags ← names.mapM fun s =>
    match DebugFlag.ofName? s with
    | some flag => Except.ok flag
    | .none => Except.error s
  return ofList flags

theorem contains_insert (flags : DebugFlags) (flag flag' : DebugFlag) :
    (flags.insert flag).contains flag' = (decide (flag = flag') || flags.contains flag') := by
  cases flag <;> cases flag' <;> simp [insert, contains]

theorem ext_contains {flags flags' : DebugFlags}
    (h : ∀ flag, flags.contains flag = flags'.contains flag) : flags = flags' :=
  DebugFlags.ext (h .dumpAst) (h .noInterpret) (h .reducedErrorReporting) (h .backtrace)

theorem contains_foldl_insert (l : List DebugFlag) (flags : DebugFlags) (flag : DebugFlag) :
    (l.foldl insert flags).contains flag = (decide (flag ∈ l) || flags.contains flag) := by
  induction l generalizing flags with
  | nil => simp
  | cons f l ih =>
    rw [List.foldl_cons, ih, contains_insert]
    by_cases h : f = flag
    · simp [h]
    · by_cases h' : flag ∈ l <;> simp [h, h', Ne.symm h]

theorem contains_ofList (l : List DebugFlag) (flag : DebugFlag) :
    (ofList l).contains flag = decide (flag ∈ l) := by
  have : none.contains flag = false := by cases flag <;> rfl
  simp [ofList, contains_foldl_insert, this]

end DebugFlags

end Featherweight
