/-! Dumps: a heading, some contents, and a rule below them. -/
namespace Featherweight.Dump

/-- The width of the heading and of the rule. -/
def width : Nat := 20

/-- A rule of `n` characters. -/
def rule (n : Nat) : String :=
  String.ofList (List.replicate n '~')

/-- A text in the middle of a rule; what cannot be halved goes to the right. A longer text is not
cut. -/
def centered (text : String) : String :=
  let padding := width - text.length
  rule (padding / 2) ++ text ++ rule (padding - padding / 2)

/-- The line above the contents. -/
def heading (name : String) : String :=
  centered (name ++ " Dump") ++ "\n"

/-- A dump with each of the contents on a line of its own. -/
def render (name : String) (contents : List String) : String :=
  heading name ++ "\n".intercalate contents ++ "\n" ++ rule width ++ "\n"

theorem length_centered (text : String) (h : text.length ≤ width) :
    (centered text).length = width := by
  simp only [centered, rule, String.length_append, String.length_ofList, List.length_replicate]
  omega

end Featherweight.Dump
