/-! How a terminal is told to show a text in a colour. -/
namespace Featherweight.Text

/-- A text in bold and red: the escape codes for both, and the one that ends them. -/
def boldRed (s : String) : String :=
  "\x1b[1m\x1b[31m" ++ s ++ "\x1b[0m"

end Featherweight.Text
