/-! Operators on integers. -/
namespace Featherweight

/-- The ten operators: five that compute and five that compare. -/
inductive Operator where
  | add
  | subtract
  | multiply
  | divide
  | mod
  | gt
  | ge
  | lt
  | le
  | eq
  deriving DecidableEq

namespace Operator

def all : List Operator :=
  [.add, .subtract, .multiply, .divide, .mod, .gt, .ge, .lt, .le, .eq]

theorem mem_all (op : Operator) : op ∈ all := by
  cases op <;> decide

/-- How programs write the operator. -/
def symbol : Operator → String
  | add => "+"
  | subtract => "-"
  | multiply => "*"
  | divide => "/"
  | mod => "%"
  | gt => ">"
  | ge => ">="
  | lt => "<"
  | le => "<="
  | eq => "=="

/-- What the operator is called. -/
def name : Operator → String
  | add => "ADD"
  | subtract => "SUBTRACT"
  | multiply => "MULTIPLY"
  | divide => "DIVIDE"
  | mod => "MOD"
  | gt => "GT"
  | ge => "GE"
  | lt => "LT"
  | le => "LE"
  | eq => "EQ"

/-- The operator that a symbol stands for. -/
def ofSymbol? (s : String) : Option Operator :=
  all.find? fun op => op.symbol == s

theorem ofSymbol?_symbol (op : Operator) : ofSymbol? op.symbol = some op := by
  cases op <;> decide

theorem symbol_of_ofSymbol? {s : String} {op : Operator} (h : ofSymbol? s = some op) :
    op.symbol = s := by
  simpa using List.find?_some h

theorem symbol_injective {op op' : Operator} (h : op.symbol = op'.symbol) : op = op' := by
  have := ofSymbol?_symbol op
  rw [h, ofSymbol?_symbol] at this
  exact (Option.some.inj this).symm

end Operator

/-- Quotient rounded toward zero and remainder with the sign of `l`, unless `r` is zero. -/
def divMod? (l r : Int) : Option (Int × Int) :=
  if r = 0 then none else some (l.tdiv r, l.tmod r)

theorem divMod?_eq_none_iff {l r : Int} : divMod? l r = none ↔ r = 0 := by
  simp [divMod?]

end Featherweight
