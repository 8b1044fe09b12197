import Featherweight.Operator

/-! Programs and the values they compute. Everything in the language is an expression: loops,
declarations and sequences have values too. A closure is a value that holds a program, and a
literal is a program that holds a value, so the two are defined together. -/
namespace Featherweight

abbrev Name := String

mutual

/-- What an expression evaluates to. -/
inductive Value where
  | int (n : Int)
  | bool (b : Bool)
  /-- The absence marker: unbound names and loops without a round have this value. -/
  | undefined
  /-- A function together with the number of the scope it was made in. Scopes are numbered from
  zero in order of creation. -/
  | closure (params : List Name) (body : Expr) (scope : Nat)

/-- Programs. -/
inductive Expr where
  | literal (value : Value)
  | var (name : Name)
  | print (operand : Expr)
  | binary (op : Operator) (left right : Expr)
  | cond (condition thenBranch elseBranch : Expr)
  | loop (condition body : Expr)
  | seq (first second : Expr)
  | declare (name : Name) (initializer : Expr)
  | assign (name : Name) (value : Expr)
  | function (params : List Name) (body : Expr)
  | call (callee : Expr) (arguments : List Expr)

end

instance : Inhabited Value := ⟨.undefined⟩

instance : Inhabited Expr := ⟨.literal .undefined⟩

namespace Expr

/-- The literal of an integer. -/
def int (n : Int) : Expr := .literal (.int n)

/-- Several expressions one after another; the last gives the value. -/
def sequence (first : Expr) : List Expr → Expr
  | [] => first
  | second :: rest => .seq first (sequence second rest)

@[simp] theorem sequence_nil (e : Expr) : sequence e [] = e := rfl

@[simp] theorem sequence_cons (e e' : Expr) (es : List Expr) :
    sequence e (e' :: es) = .seq e (sequence e' es) := rfl

end Expr

/-- Induction over values and programs at once: the arguments of a call are covered member by
member. -/
theorem Expr.induction {motive : Expr → Prop} {motive_value : Value → Prop}
    (int : ∀ n, motive_value (.int n)) (bool : ∀ b, motive_value (.bool b))
    (undefined : motive_value .undefined)
    (closure : ∀ params body scope, motive body → motive_value (.closure params body scope))
    (literal : ∀ v, motive_value v → motive (.literal v)) (var : ∀ x, motive (.var x))
    (print : ∀ e, motive e → motive (.print e))
    (binary : ∀ op l r, motive l → motive r → motive (.binary op l r))
    (cond : ∀ c t e, motive c → motive t → motive e → motive (.cond c t e))
    (loop : ∀ c b, motive c → motive b → motive (.loop c b))
    (seq : ∀ a b, motive a → motive b → motive (.seq a b))
    (declare : ∀ x e, motive e → motive (.declare x e))
    (assign : ∀ x e, motive e → motive (.assign x e))
    (function : ∀ params body, motive body → motive (.function params body))
    (call : ∀ f args, motive f → (∀ a ∈ args, motive a) → motive (.call f args)) (e : Expr) :
    motive e :=
  @Expr.rec motive_value motive (fun es => ∀ e ∈ es, motive e)
    int bool undefined closure literal var print binary cond loop seq declare assign function call
    (fun _ h => nomatch h)
    (fun _ _ he hes _ h => (List.mem_cons.1 h).elim (fun h => h ▸ he) (hes _)) e

end Featherweight
