import Featherweight.Expr.Basic

/-! Equality of values and programs is decidable. Two closures are equal when they agree in
parameters, body and captured scope; as every literal of a closure that is read gets a scope of
its own, separately read closures differ. -/
namespace Featherweight

mutual

/-- Whether two values are equal. -/
def Value.beq : Value → Value → Bool
  | .int n, .int n' => n == n'
  | .bool b, .bool b' => b == b'
  | .undefined, .undefined => true
  | .closure ps body i, .closure ps' body' i' => ps == ps' && i == i' && body.beq body'
  | _, _ => false

/-- Whether two programs are equal. -/
def Expr.beq : Expr → Expr → Bool
  | .literal v, .literal v' => v.beq v'
  | .var x, .var x' => x == x'
  | .print e, .print e' => e.beq e'
  | .binary op l r, .binary op' l' r' => decide (op = op') && l.beq l' && r.beq r'
  | .cond c t e, .cond c' t' e' => c.beq c' && t.beq t' && e.beq e'
  | .loop c b, .loop c' b' => c.beq c' && b.beq b'
  | .seq a b, .seq a' b' => a.beq a' && b.beq b'
  | .declare x e, .declare x' e' => x == x' && e.beq e'
  | .assign x e, .assign x' e' => x == x' && e.beq e'
  | .function ps body, .function ps' body' => ps == ps' && body.beq body'
  | .call f args, .call f' args' => f.beq f' && Expr.beqAll args args'
  | _, _ => false

/-- Whether two lists of programs are equal member by member. -/
def Expr.beqAll : List Expr → List Expr → Bool
  | [], [] => true
  | e :: es, e' :: es' => e.beq e' && Expr.beqAll es es'
  | _, _ => false

end

mutual

theorem Value.beq_iff_eq : ∀ v w : Value, v.beq w = true ↔ v = w
  | .int _, w => by cases w <;> simp [Value.beq]
  | .bool _, w => by cases w <;> simp [Value.beq]
  | .undefined, w => by cases w <;> simp [Value.beq]
  | .closure _ body _, w => by
    cases w <;> simp [Value.beq, Expr.beq_iff_eq body, and_assoc, and_comm, and_left_comm]

theorem Expr.beq_iff_eq : ∀ d e : Expr, d.beq e = true ↔ d = e
  | .literal v, e => by cases e <;> simp [Expr.beq, Value.beq_iff_eq v]
  | .var _, e => by cases e <;> simp [Expr.beq]
  | .print d, e => by cases e <;> simp [Expr.beq, Expr.beq_iff_eq d]
  | .binary _ l r, e => by
    cases e <;> simp [Expr.beq, Expr.beq_iff_eq l, Expr.beq_iff_eq r, and_assoc]
  | .cond c t d, e => by
    cases e <;>
      simp [Expr.beq, Expr.beq_iff_eq c, Expr.beq_iff_eq t, Expr.beq_iff_eq d, and_assoc]
  | .loop c b, e => by cases e <;> simp [Expr.beq, Expr.beq_iff_eq c, Expr.beq_iff_eq b]
  | .seq a b, e => by cases e <;> simp [Expr.beq, Expr.beq_iff_eq a, Expr.beq_iff_eq b]
  | .declare _ d, e => by cases e <;> simp [Expr.beq, Expr.beq_iff_eq d]
  | .assign _ d, e => by cases e <;> simp [Expr.beq, Expr.beq_iff_eq d]
  | .function _ body, e => by cases e <;> simp [Expr.beq, Expr.beq_iff_eq body]
  | .call f args, e => by
    cases e <;> simp [Expr.beq, Expr.beq_iff_eq f, Expr.beqAll_iff_eq args]

theorem Expr.beqAll_iff_eq : ∀ ds es : List Expr, Expr.beqAll ds es = true ↔ ds = es
  | [], es => by cases es <;> simp [Expr.beqAll]
  | d :: ds, es => by
    cases es <;> simp [Expr.beqAll, Expr.beq_iff_eq d, Expr.beqAll_iff_eq ds]

end

instance : DecidableEq Value := fun v w => decidable_of_iff _ (Value.beq_iff_eq v w)

instance : DecidableEq Expr := fun d e => decidable_of_iff _ (Expr.beq_iff_eq d e)

end Featherweight
