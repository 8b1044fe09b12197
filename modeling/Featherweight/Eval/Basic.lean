import Featherweight.Eval.Action

/-! Evaluation of programs. Programs need not terminate, so evaluation takes fuel, which bounds
both the depth of the evaluation and the rounds of each loop; an answer that is reached does not
depend on it. The pieces take the evaluation of subprograms as an argument.

How deep the host can recurse is left out. There, a program or a chain of calls that is nested too
deeply ends in a failure of the host; here it is evaluated like any other. -/
namespace Featherweight

namespace Operator

/-- The operator on two integers. -/
def compute : Operator → Int → Int → Except Cause Value
  | add, l, r => .ok (.int (l + r))
  | subtract, l, r => .ok (.int (l - r))
  | multiply, l, r => .ok (.int (l * r))
  | divide, l, r => match divMod? l r with
    | none => .error .divisionByZero
    | some (q, _) => .ok (.int q)
  | mod, l, r => match divMod? l r with
    | none => .error .divisionByZero
    | some (_, m) => .ok (.int m)
  | gt, l, r => .ok (.bool (decide (l > r)))
  | ge, l, r => .ok (.bool (decide (l ≥ r)))
  | lt, l, r => .ok (.bool (decide (l < r)))
  | le, l, r => .ok (.bool (decide (l ≤ r)))
  | eq, l, r => .ok (.bool (decide (l = r)))

/-- The operator on two values, which must be integers. Nothing is converted. -/
def apply (op : Operator) : Value → Value → Except Cause Value
  | .int l, .int r => op.compute l r
  | v, w => .error (.operands op v.kind w.kind)

end Operator

namespace Action

/-- Further rounds of a loop that is at the start of a round: the body, then the condition, which
must be a bool. The value is that of the last round. -/
def rounds (condition body : Action Value) (node : Expr) : Nat → Action Value
  | 0 => outOfFuel
  | fuel + 1 => do
    let v ← body
    match ← condition with
    | .bool true => rounds condition body node fuel
    | .bool false => pure v
    | w => fail (.loopCondition w.kind) (some node)

/-- A whole loop. A first condition that is no bool counts as false. -/
def loop (condition body : Action Value) (node : Expr) (fuel : Nat) : Action Value := do
  match ← condition with
  | .bool true => rounds condition body node fuel
  | _ => pure .undefined

/-- Evaluates the body of a closure in a new scope inside the captured one, which binds the
parameters to the arguments. -/
def enter (eval : Nat → Expr → Action Value) (params : List Name) (body : Expr)
    (captured : Nat) (arguments : List Value) : Action Value := do
  let frame ← newScope (some captured)
  declareAll frame (params.zip arguments)
  eval frame body

/-- Applies a closure to as many arguments as it has parameters. -/
def apply (eval : Nat → Expr → Action Value) (params : List Name) (body : Expr)
    (captured : Nat) (arguments : List Value) : Action Value :=
  if arguments.length = params.length then enter eval params body captured arguments
  else fail (.arity params.length arguments.length) none

/-- The call of a value. The callee is looked at before any argument is evaluated; the number of
arguments is checked after all of them. -/
def call (eval : Nat → Expr → Action Value) (i : Nat) (node : Expr)
    (arguments : List Expr) : Value → Action Value
  | .closure params body captured => do
    let values ← arguments.mapM (eval i)
    if values.length = params.length then apply eval params body captured values
    else fail (.arity params.length values.length) (some node)
  | v => fail (.notCallable v.kind) (some node)

end Action

/-- Evaluates a program in scope `i`. -/
def Expr.eval : Nat → Nat → Expr → Action Value
  | 0, _, _ => Action.outOfFuel
  | fuel + 1, i, node =>
    match node with
    | .literal v => pure v
    | .var x => Action.resolve i x
    | .print e => do
      let v ← eval fuel i e
      Action.printLine v
      pure v
    | .binary op l r => do
      let v ← eval fuel i l
      let w ← eval fuel i r
      match op.apply v w with
      | .ok u => pure u
      | .error cause => Action.fail cause (some node)
    | .cond c t e => do
      match ← eval fuel i c with
      | .bool true => eval fuel i t
      | .bool false => eval fuel i e
      | v => Action.fail (.condition v.kind) (some node)
    | .loop c b => Action.loop (eval fuel i c) (eval fuel i b) node fuel
    | .seq a b => do
      let _ ← eval fuel i a
      eval fuel i b
    | .declare x e => do
      let v ← eval fuel i e
      Action.declare i x v (some node)
      pure .undefined
    | .assign x e => do
      let v ← eval fuel i e
      Action.assign i x v
      pure v
    | .function params body => pure (.closure params body i)
    | .call f args => do
      let v ← eval fuel i f
      Action.call (eval fuel) i node args v

/-- Applies a value, if it is a closure. -/
def Value.apply? (fuel : Nat) (arguments : List Value) : Value → Option (Action Value)
  | .closure params body captured =>
    some (Action.apply (Expr.eval fuel) params body captured arguments)
  | _ => none

end Featherweight
