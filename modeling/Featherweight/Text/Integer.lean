import Featherweight.Text.Blank
import Featherweight.Text.Digit

/-! Integers as decimal text. Neither reading nor writing handles more than `digitLimit` digits;
leading zeros count on reading, the sign never does. -/
namespace Featherweight.Text

/-- The most decimal digits that an integer may have in a text. -/
def digitLimit : Nat := 4300

/-- The least magnitude that has too many digits. -/
def unwritableMagnitude : Nat := Nat.pow 10 digitLimit

/-- Whether `n` has few enough digits to be written. -/
def isWritable (n : Int) : Bool :=
  decide (n.natAbs < unwritableMagnitude)

/-- What is reported for an integer with too many digits. -/
def digitLimitMessage : String :=
  "Exceeds the limit (4300 digits) for integer string conversion; " ++
    "use sys.set_int_max_str_digits() to increase the limit"

theorem isWritable_neg (n : Int) : isWritable (-n) = isWritable n := by
  simp [isWritable]

/-- Continues a number of `count` digits and the given value; a single underscore may stand
before each further digit. -/
def readDigits (value count : Nat) : List Char → Option (Nat × Nat)
  | [] => some (value, count)
  | '_' :: c :: rest =>
    (digitValue? c).bind fun d => readDigits (value * 10 + d) (count + 1) rest
  | c :: rest => (digitValue? c).bind fun d => readDigits (value * 10 + d) (count + 1) rest

/-- Reads an unsigned integer. -/
def readMagnitude? : List Char → Option Nat
  | [] => none
  | c :: rest =>
    ((digitValue? c).bind fun d => readDigits d 1 rest).bind fun (value, count) =>
      if count ≤ digitLimit then some value else none

/-- Reads an integer with an optional sign. -/
def readSigned? : List Char → Option Int
  | '+' :: rest => (readMagnitude? rest).map Int.ofNat
  | '-' :: rest => (readMagnitude? rest).map fun n => -Int.ofNat n
  | cs => (readMagnitude? cs).map Int.ofNat

/-- Reads an integer that blanks may surround. -/
def readInteger? (s : String) : Option Int :=
  readSigned? (trimBlanks s.toList)

end Featherweight.Text
