/-! Erasing a word from a text. -/
namespace Featherweight.Text

/-- What is left of a text without the occurrences of a non-empty `word`, found from left to
right, after `skip` characters of an occurrence that has begun. -/
def eraseFrom (word : List Char) : Nat → List Char → List Char
  | _, [] => []
  | skip + 1, _ :: cs => eraseFrom word skip cs
  | 0, c :: cs =>
    if word.isPrefixOf (c :: cs) then eraseFrom word (word.length - 1) cs
    else c :: eraseFrom word 0 cs

/-- A text without the occurrences of `word`; the empty word occurs nowhere. -/
def erase (word text : String) : String :=
  if word.isEmpty then text else String.ofList (eraseFrom word.toList 0 text.toList)

theorem eraseFrom_length (word : List Char) (cs : List Char) :
    eraseFrom word cs.length cs = [] := by
  induction cs with
  | nil => rfl
  | cons c cs ih => exact ih

/-- A word erased from itself leaves nothing. -/
theorem eraseFrom_self (c : Char) (cs : List Char) : eraseFrom (c :: cs) 0 (c :: cs) = [] := by
  simp [eraseFrom, eraseFrom_length]

end Featherweight.Text
