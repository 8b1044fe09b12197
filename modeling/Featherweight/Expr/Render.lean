import Featherweight.Value.Basic

/-! The text of a program: one parenthesised form per node, written on one line. How deep the host
can recurse is left out, as it is in evaluation: every program has its text, however deeply it is
nested, up to the limit on the digits of an integer. -/
namespace Featherweight

mutual

/-- The text of a program. -/
def Expr.render : Expr → String
  | .literal v => v.display
  | .var x => x
  | .print e => "(print " ++ e.render ++ ")"
  | .binary op l r => "(" ++ op.symbol ++ " " ++ l.render ++ " " ++ r.render ++ ")"
  | .cond c t e => "(if " ++ c.render ++ " " ++ t.render ++ " " ++ e.render ++ ")"
  | .loop c b => "(while " ++ c.render ++ " " ++ b.render ++ ")"
  | .seq a b => "(seq " ++ a.render ++ " " ++ b.render ++ ")"
  | .declare x e => "(var " ++ x ++ " " ++ e.render ++ ")"
  | .assign x e => "(= " ++ x ++ " " ++ e.render ++ ")"
  | .function ps body => "(function [" ++ commaSeparated ps ++ "] " ++ body.render ++ ")"
  | .call f args => "(call " ++ f.render ++ " [" ++ commaSeparated (Expr.renderAll args) ++ "])"

/-- The texts of several programs. -/
def Expr.renderAll : List Expr → List String
  | [] => []
  | e :: es => e.render :: Expr.renderAll es

end

mutual

/-- Whether every integer that the text of the program shows can be written. -/
def Expr.isWritable : Expr → Bool
  | .literal v => v.isWritable
  | .var _ => true
  | .print e => e.isWritable
  | .binary _ l r => l.isWritable && r.isWritable
  | .cond c t e => c.isWritable && t.isWritable && e.isWritable
  | .loop c b => c.isWritable && b.isWritable
  | .seq a b => a.isWritable && b.isWritable
  | .declare _ e => e.isWritable
  | .assign _ e => e.isWritable
  | .function _ body => body.isWritable
  | .call f args => f.isWritable && Expr.allWritable args

/-- Whether several programs can all be written. -/
def Expr.allWritable : List Expr → Bool
  | [] => true
  | e :: es => e.isWritable && Expr.allWritable es

end

namespace Expr

theorem renderAll_eq_map (es : List Expr) : renderAll es = es.map render := by
  induction es with
  | nil => rfl
  | cons e es ih => simp [renderAll, ih]

theorem allWritable_eq_all (es : List Expr) : allWritable es = es.all isWritable := by
  induction es with
  | nil => rfl
  | cons e es ih => simp [allWritable, ih]

/-- The text of a program, unless it shows an integer with too many digits. -/
def text? (e : Expr) : Option String :=
  if e.isWritable then some e.render else none

theorem text?_eq_some_iff {e : Expr} {s : String} :
    e.text? = some s ↔ e.isWritable = true ∧ e.render = s := by
  simp [text?]

end Expr

end Featherweight
