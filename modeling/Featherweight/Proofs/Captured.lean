import Featherweight.Expr.Basic

/-! Which scopes a program mentions. Only literals of closures mention any: the scope a closure
captured, and those mentioned in its body. -/
namespace Featherweight

mutual

/-- The scopes captured by a value: its own if it is a closure, and those in the body. -/
def Value.captured : Value → List Nat
  | .closure _ body i => i :: body.captured
  | _ => []

/-- The scopes captured by the closure literals anywhere in a program. -/
def Expr.captured : Expr → List Nat
  | .literal v => v.captured
  | .var _ => []
  | .print e => e.captured
  | .binary _ l r => l.captured ++ r.captured
  | .cond c t e => c.captured ++ t.captured ++ e.captured
  | .loop c b => c.captured ++ b.captured
  | .seq a b => a.captured ++ b.captured
  | .declare _ e => e.captured
  | .assign _ e => e.captured
  | .function _ body => body.captured
  | .call f args => f.captured ++ Expr.capturedAll args

/-- The scopes captured in several programs. -/
def Expr.capturedAll : List Expr → List Nat
  | [] => []
  | e :: es => e.captured ++ Expr.capturedAll es

end

@[simp] theorem Value.captured_int (n : Int) : (Value.int n).captured = [] := rfl

@[simp] theorem Value.captured_bool (b : Bool) : (Value.bool b).captured = [] := rfl

@[simp] theorem Value.captured_undefined : Value.undefined.captured = [] := rfl

@[simp] theorem Value.captured_closure (params : List Name) (body : Expr) (i : Nat) :
    (Value.closure params body i).captured = i :: body.captured := rfl

namespace Expr

/-- The subprograms that are evaluated in the same scope, in order. -/
def children : Expr → List Expr
  | .literal _ | .var _ | .function .. => []
  | .print e | .declare _ e | .assign _ e => [e]
  | .binary _ l r => [l, r]
  | .cond c t e => [c, t, e]
  | .loop c b => [c, b]
  | .seq a b => [a, b]
  | .call f args => f :: args

/-- Induction over programs by their parts: the children, and the body of a function. Closure
literals are not looked into. -/
theorem induction_children {motive : Expr → Prop}
    (h : ∀ e, (∀ d ∈ e.children, motive d) → (∀ ps b, e = .function ps b → motive b) → motive e)
    (e : Expr) : motive e := by
  refine @Expr.induction motive (fun _ => True) ?int ?bool ?undefined ?closure ?literal ?var ?print
    ?binary ?cond ?loop ?seq ?declare ?assign ?function ?call e
  case int | bool | undefined | closure => simp
  case function =>
    intro ps b hb
    refine h _ (by simp [children]) fun _ _ hfunction => ?_
    cases hfunction
    exact hb
  case call =>
    intro f args hf hargs
    exact h _ (List.forall_mem_cons.2 ⟨hf, hargs⟩) nofun
  all_goals
    intros
    refine h _ ?_ nofun
    simp_all [children]

theorem mem_capturedAll {es : List Expr} {j : Nat} :
    j ∈ capturedAll es ↔ ∃ e ∈ es, j ∈ e.captured := by
  induction es with
  | nil => simp [capturedAll]
  | cons e es ih => simp [capturedAll, ih]

theorem captured_of_child {e d : Expr} (hd : d ∈ e.children) {j : Nat} (hj : j ∈ d.captured) :
    j ∈ e.captured := by
  cases e with
  | literal | var | function => simp [children] at hd
  | call f args =>
    -- The only node with any number of parts.
    simp only [children, List.mem_cons] at hd
    simp only [captured, List.mem_append, mem_capturedAll]
    rcases hd with rfl | hd
    · exact .inl hj
    · exact .inr ⟨d, hd, hj⟩
  | _ =>
    simp only [children, List.mem_cons, List.not_mem_nil, or_false] at hd
    simp only [captured, List.mem_append]
    grind

/-- The scopes that evaluation of a program in scope `i` starts from. -/
def roots (e : Expr) (i : Nat) : List Nat :=
  i :: e.captured

theorem roots_of_child {e d : Expr} (hd : d ∈ e.children) {i j : Nat} (hj : j ∈ d.roots i) :
    j ∈ e.roots i := by
  rcases List.mem_cons.1 hj with rfl | hj
  · exact List.mem_cons_self ..
  · exact List.mem_cons_of_mem _ (captured_of_child hd hj)

/-- A program without closure literals. -/
def ClosureFree (e : Expr) : Prop :=
  e.captured = []

instance (e : Expr) : Decidable e.ClosureFree :=
  inferInstanceAs (Decidable (e.captured = []))

end Expr

end Featherweight
