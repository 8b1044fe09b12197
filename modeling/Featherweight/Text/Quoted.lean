import Featherweight.Text.Printable

/-! Quoted text, as messages show the words they complain about. The delimiter is an apostrophe,
or a double quote when the text holds an apostrophe and no double quote; the delimiter, the
backslash and what cannot be printed are escaped. -/
namespace Featherweight.Text

def apostrophe : Char := '\x27'

def doubleQuote : Char := '\x22'

/-- A number in small hexadecimal digits, with zeros in front up to a width. -/
def hexDigits (width n : Nat) : List Char :=
  (Nat.toDigits 16 n).leftpad width '0'

theorem le_length_hexDigits (width n : Nat) : width ≤ (hexDigits width n).length := by
  simp only [hexDigits, List.length_leftpad]
  omega

/-- A character written by its code point, in two, four or eight digits as it needs. -/
def codePoint (c : Char) : List Char :=
  if c.toNat < 0x100 then '\\' :: 'x' :: hexDigits 2 c.toNat
  else if c.toNat < 0x10000 then '\\' :: 'u' :: hexDigits 4 c.toNat
  else '\\' :: 'U' :: hexDigits 8 c.toNat

/-- One character between delimiters. -/
def escaped (delimiter c : Char) : List Char :=
  if c = delimiter ∨ c = '\\' then ['\\', c]
  else if c = '\n' then ['\\', 'n']
  else if c = '\r' then ['\\', 'r']
  else if c = '\t' then ['\\', 't']
  else if isPrintable c then [c]
  else codePoint c

/-- The delimiter that quotes a text. -/
def delimiter (s : List Char) : Char :=
  if apostrophe ∈ s ∧ doubleQuote ∉ s then doubleQuote else apostrophe

/-- The characters of a quoted text. -/
def quotedChars (s : List Char) : List Char :=
  delimiter s :: (s.flatMap (escaped (delimiter s)) ++ [delimiter s])

/-- A text between delimiters. -/
def quoted (s : String) : String :=
  String.ofList (quotedChars s.toList)

end Featherweight.Text
