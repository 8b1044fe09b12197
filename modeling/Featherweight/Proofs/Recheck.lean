import Featherweight.Eval.Basic
import Featherweight.Value.Class

/-! Evaluation that trusts no check. A node looks at the values that its parts come to, and whatever
takes the values from there looks at them again: the accessors for integers and bools, the
declaration of a name, the division, the search for the operator. Nothing comes of the second
look, so both evaluators are the same. -/
namespace Featherweight

/-- What no program should be able to provoke. -/
inductive Fault where
  /-- A division by zero that was not kept from being carried out. -/
  | zeroDivision
  /-- An operator of no known sort. -/
  | unreachable

/-- The comparison that an operator stands for. -/
def Operator.comparison? : Operator → Option (Int → Int → Bool)
  | gt => some fun l r => decide (l > r)
  | ge => some fun l r => decide (l ≥ r)
  | lt => some fun l r => decide (l < r)
  | le => some fun l r => decide (l ≤ r)
  | eq => some fun l r => decide (l = r)
  | _ => none

namespace Recheck

/-- The integer that a value is; another value fails by itself. -/
def int (v : Value) : Action Int :=
  fun s => some (v.asInt, s)

/-- The bool that a value is; another value fails by itself. -/
def bool (v : Value) : Action Bool :=
  fun s => some (v.asBool, s)

section
variable (broken : Fault → Action Value)

/-- An operator on integers: the comparisons first, then one operator after the other. -/
def compute (op : Operator) (node : Expr) (l r : Int) : Action Value :=
  match op.comparison? with
  | some test => pure (.bool (test l r))
  | none =>
    if op = .add then pure (.int (l + r))
    else if op = .subtract then pure (.int (l - r))
    else if op = .multiply then pure (.int (l * r))
    else if op = .divide ∨ op = .mod then
      if r = 0 then Action.fail .divisionByZero (some node)
      else match divMod? l r with
        | none => broken .zeroDivision
        | some (q, m) => pure (.int (if op = .divide then q else m))
    else broken .unreachable

/-- An operator on values: their class is checked, and then each is asked for its integer. -/
def operate (op : Operator) (node : Expr) (v w : Value) : Action Value :=
  if ValueClass.oneAdmitsAll [.only .int] [v, w] then do
    let l ← int v
    let r ← int w
    compute broken op node l r
  else Action.fail (.operands op v.kind w.kind) (some node)

/-- A choice by a value: its kind is checked, and then it is asked for its bool. -/
def branch (node : Expr) (whenTrue whenFalse : Action Value) (v : Value) : Action Value :=
  if v.kind = .bool then do
    if ← bool v then whenTrue else whenFalse
  else Action.fail (.condition v.kind) (some node)

/-- The rounds that follow when the condition has the value `w` and the last round gave `v`. -/
def rounds (condition body : Action Value) (node : Expr) : Nat → Value → Value → Action Value
  | fuel, w, v => do
    if ← bool w then
      match fuel with
      | 0 => Action.outOfFuel
      | fuel + 1 => do
        let v ← body
        let w ← condition
        if w.kind = .bool then rounds condition body node fuel w v
        else Action.fail (.loopCondition w.kind) (some node)
    else pure v

/-- A whole loop. -/
def loop (condition body : Action Value) (node : Expr) (fuel : Nat) : Action Value := do
  let w ← condition
  if w.kind = .bool then rounds condition body node fuel w .undefined
  else pure .undefined

/-- A declaration by a node, which looks for the name in the scope before the scope does. -/
def declare (i : Nat) (x : Name) (v : Value) (node : Expr) : Action Unit :=
  fun s =>
    if s.heap.binds i x then Action.fail (.duplicate x) (some node) s
    else Action.declare i x v none s

theorem int_int (n : Int) : int (.int n) = pure n := rfl

theorem bool_bool (b : Bool) : bool (.bool b) = pure b := rfl

theorem compute_eq (op : Operator) (node : Expr) (l r : Int) :
    compute broken op node l r =
      match op.compute l r with
      | .ok u => pure u
      | .error cause => Action.fail cause (some node) := by
  cases op with
  | divide | mod =>
    by_cases hr : r = 0 <;> simp [compute, Operator.comparison?, Operator.compute, divMod?, hr]
  | _ => rfl

theorem operate_eq (op : Operator) (node : Expr) (v w : Value) :
    operate broken op node v w =
      match op.apply v w with
      | .ok u => pure u
      | .error cause => Action.fail cause (some node) := by
  cases v with
  | int l =>
    cases w with
    | int r =>
      rw [operate, if_pos (by rfl), int_int, int_int, pure_bind, pure_bind, compute_eq]
      rfl
    | _ => rfl
  | _ => cases w <;> rfl

theorem rounds_false (condition body : Action Value) (node : Expr) (fuel : Nat) (v : Value) :
    rounds condition body node fuel (.bool false) v = pure v := by
  cases fuel <;> rfl

theorem rounds_true (condition body : Action Value) (node : Expr) (fuel : Nat) (v : Value) :
    rounds condition body node fuel (.bool true) v = Action.rounds condition body node fuel := by
  induction fuel generalizing v with
  | zero => rfl
  | succ fuel ih =>
    rw [rounds, bool_bool, pure_bind, if_pos rfl, Action.rounds]
    congr 1
    funext v
    congr 1
    funext w
    cases w with
    | bool b =>
      rw [if_pos (by rfl)]
      cases b with
      | true => exact ih v
      | false => exact rounds_false ..
    | _ => rfl

theorem loop_eq (condition body : Action Value) (node : Expr) (fuel : Nat) :
    loop condition body node fuel = Action.loop condition body node fuel := by
  rw [loop, Action.loop]
  congr 1
  funext w
  cases w with
  | bool b =>
    rw [if_pos (by rfl)]
    cases b with
    | true => exact rounds_true ..
    | false => exact rounds_false ..
  | _ => rfl

theorem declare_eq (i : Nat) (x : Name) (v : Value) (node : Expr) :
    declare i x v node = Action.declare i x v (some node) := by
  funext s
  cases hb : s.heap.binds i x <;> simp [declare, Action.declare, Action.fail, hb]

end

end Recheck

/-- Evaluation with every check made again where the value is used. The arity of a call is checked
again by `Action.apply`, as it always is. Should a fault happen after all, then `broken` takes
over. -/
def Expr.recheck (broken : Fault → Action Value) : Nat → Nat → Expr → Action Value
  | 0, _, _ => Action.outOfFuel
  | fuel + 1, i, node =>
    match node with
    | .literal v => pure v
    | .var x => Action.resolve i x
    | .print e => do
      let v ← recheck broken fuel i e
      Action.printLine v
      pure v
    | .binary op l r => do
      let v ← recheck broken fuel i l
      let w ← recheck broken fuel i r
      Recheck.operate broken op node v w
    | .cond c t e => do
      let v ← recheck broken fuel i c
      Recheck.branch node (recheck broken fuel i t) (recheck broken fuel i e) v
    | .loop c b => Recheck.loop (recheck broken fuel i c) (recheck broken fuel i b) node fuel
    | .seq a b => do
      let _ ← recheck broken fuel i a
      recheck broken fuel i b
    | .declare x e => do
      let v ← recheck broken fuel i e
      Recheck.declare i x v node
      pure .undefined
    | .assign x e => do
      let v ← recheck broken fuel i e
      Action.assign i x v
      pure v
    | .function params body => pure (.closure params body i)
    | .call f args => do
      let v ← recheck broken fuel i f
      Action.call (recheck broken fuel) i node args v

/-- No second look at a value finds anything, and no fault happens. -/
theorem Expr.recheck_eq_eval (broken : Fault → Action Value) (fuel : Nat) :
    Expr.recheck broken fuel = Expr.eval fuel := by
  induction fuel with
  | zero => rfl
  | succ fuel ih =>
    funext i e
    cases e with
    | binary op l r =>
      simp only [recheck, eval, ih]
      congr 1
      funext v
      congr 1
      funext w
      exact Recheck.operate_eq ..
    | cond c t e =>
      simp only [recheck, eval, ih]
      congr 1
      funext v
      cases v with
      | bool b => cases b <;> rfl
      | _ => rfl
    | loop c b => simp only [recheck, eval, ih, Recheck.loop_eq]
    | declare x e => simp only [recheck, eval, ih, Recheck.declare_eq]
    | _ => simp only [recheck, eval, ih]

end Featherweight
