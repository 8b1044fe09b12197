import Featherweight.Text.Digit

/-! Tokens: what each argument of the command line is, before any of them is acted on. -/
namespace Featherweight.CommandLine

/-- The options. -/
inductive Switch where
  | help
  | list
  | debug
  | recursionLimit
  deriving DecidableEq

namespace Switch

def all : List Switch :=
  [.help, .list, .debug, .recursionLimit]

/-- How the option is written. -/
def spellings : Switch → List String
  | help => ["-h", "--help"]
  | list => ["--list"]
  | debug => ["--dbg"]
  | recursionLimit => ["--recursion-limit"]

/-- What messages call the option. -/
def title (s : Switch) : String :=
  "/".intercalate s.spellings

/-- The option with the given spelling. There are no abbreviations. -/
def ofText? (text : String) : Option Switch :=
  all.find? fun s => s.spellings.contains text

end Switch

/-- What an argument is. -/
inductive Token where
  /-- A sample, or the argument of the option before it. -/
  | plain (text : String)
  /-- The mark after which all arguments are plain. -/
  | separator
  | switch (s : Switch)
  /-- An option and its argument in one. -/
  | assigned (s : Switch) (text : String)
  | unknown (text : String)
  deriving DecidableEq

namespace Token

/-- How the separator is written. -/
def separatorText : String := "--"

/-- The one option that is written with one minus sign. -/
def clusterText : String := "-h"

def isDigit (c : Char) : Bool :=
  (Text.digitValue? c).isSome

/-- Whether what follows a minus sign makes a negative number: digits, of which a point may
divide off the last ones. A line break at the end does not count. -/
def isNumber (s : List Char) : Bool :=
  let s := if s.getLast? = some '\n' then s.dropLast else s
  match s.dropWhile isDigit with
  | [] => !s.isEmpty
  | '.' :: decimals => !decimals.isEmpty && decimals.all isDigit
  | _ => false

/-- What follows the option `-h` in its argument, with or without an equals sign: the same option
again, any number of times, and then perhaps a text that no option takes. -/
def ofCluster (cs : List Char) : Token :=
  match cs.dropWhile (· = 'h') with
  | [] => .switch .help
  | rest => .assigned .help (String.ofList rest)

/-- An option to which the argument assigns a text. To `-h`, which takes none, a text that is not
empty is as good as one that follows it. -/
def assigned? (cs : List Char) : Option Token :=
  match cs.dropWhile (· ≠ '=') with
  | '=' :: text =>
    let spelling := String.ofList (cs.takeWhile (· ≠ '='))
    (Switch.ofText? spelling).map fun s =>
      if spelling = clusterText ∧ text ≠ [] then ofCluster text
      else .assigned s (String.ofList text)
  | _ => none

/-- An argument that starts with a minus sign and is no option. -/
def ofUnknown (rest : List Char) (text : String) : Token :=
  if rest.isEmpty || isNumber rest || rest.contains ' ' then .plain text else .unknown text

/-- What an argument before the separator is. -/
def ofArgument (text : String) : Token :=
  match text.toList with
  | '-' :: rest =>
    match Switch.ofText? text with
    | some s => .switch s
    | none =>
      match assigned? ('-' :: rest) with
      | some token => token
      | none =>
        match rest with
        | 'h' :: more => ofCluster more
        | _ => ofUnknown rest text
  | _ => .plain text

/-- What all the arguments are. -/
def ofArguments : List String → List Token
  | [] => []
  | text :: rest =>
    if text = separatorText then .separator :: rest.map .plain
    else ofArgument text :: ofArguments rest

theorem ofArgument_spelling (s : Switch) {text : String} (h : text ∈ s.spellings) :
    ofArgument text = .switch s := by
  cases s <;> simp only [Switch.spellings, List.mem_cons, List.not_mem_nil, or_false] at h
  · rcases h with rfl | rfl <;> decide
  all_goals subst h; decide

end Token

end Featherweight.CommandLine
