import Featherweight.Expr.Render
import Featherweight.Text.Erase
import Featherweight.Value.Class

/-! Outlines of nodes and values: a name made from the class, and the fields as texts. -/
namespace Featherweight

/-- A name and the texts of the fields. -/
structure Outline where
  name : String
  fields : List String
  deriving DecidableEq

/-- The name of a class without the word `base`, in small letters. -/
def Outline.nameOf (base className : String) : String :=
  (Text.erase base className).map Char.toLower

namespace Value

/-- The fields of a value, in the order of its declaration. -/
def fields : Value → List String
  | .int n => [toString n]
  | .bool b => [if b then "True" else "False"]
  | .undefined => []
  | .closure params body _ => ["[" ++ commaSeparated params ++ "]", body.render]

def outline (base : String) (v : Value) : Outline :=
  ⟨Outline.nameOf base v.kind.className, v.fields⟩

end Value

namespace Expr

/-- The class of a node. -/
def className : Expr → String
  | .literal _ => "ValueExpr"
  | .var _ => "VarExpr"
  | .print _ => "PrintExpr"
  | .binary .. => "BinOpExpr"
  | .cond .. => "IfExpr"
  | .loop .. => "WhileExpr"
  | .seq .. => "SeqExpr"
  | .declare .. => "VarDeclExpr"
  | .assign .. => "AssignExpr"
  | .function .. => "FunctionDeclExpr"
  | .call .. => "FunctionAppExpr"

/-- The fields of a node, in the order of its declaration. -/
def fields : Expr → List String
  | .literal v => [v.display]
  | .var x => [x]
  | .print e => [e.render]
  | .binary op l r => [op.symbol, l.render, r.render]
  | .cond c t e => [c.render, t.render, e.render]
  | .loop c b => [c.render, b.render]
  | .seq a b => [a.render, b.render]
  | .declare x e => [x, e.render]
  | .assign x e => [x, e.render]
  | .function params body => ["[" ++ commaSeparated params ++ "]", body.render]
  | .call f args => [f.render, "[" ++ commaSeparated (renderAll args) ++ "]"]

def outline (base : String) (e : Expr) : Outline :=
  ⟨Outline.nameOf base e.className, e.fields⟩

end Expr

end Featherweight
