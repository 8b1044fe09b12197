import Featherweight.Proofs.Assignment
import Featherweight.Proofs.Lookup
import Featherweight.Proofs.Loop
import Featherweight.Proofs.Nodes
import Featherweight.Sample
import Mathlib.Data.Nat.Factorial.Basic

/-! What the factorial program and the counting program come to, at all arguments. Each call of the
factorial function opens a scope of its own inside the global one, so an outer call still has its
argument when the inner call comes back; the rounds of the counting loop all write to one scope. -/
namespace Featherweight

open Featherweight.Expr (int InTurn Rounds LoopEnds)
open Featherweight.Sample (countBody countCondition factorialBody)

namespace Heap

/-- The factorial function, made in the global scope. -/
def factorialClosure : Value := .closure ["n"] factorialBody 0

/-- The global scope binds the factorial function and nothing else. -/
structure BindsFactorial (h : Heap) : Prop where
  ordered : h.Ordered
  global : h.scope? 0 = some ⟨none, [("fact", factorialClosure)]⟩

/-- The heap in a call of the function: a scope for the argument comes last. -/
def withArgument (h : Heap) (n : Int) : Heap :=
  h.newFrame 0 [("n", .int n)]

section
variable {h : Heap} (hf : h.BindsFactorial)
include hf

theorem BindsFactorial.zero_lt_size : 0 < h.size :=
  lt_size_of_scope? hf.global

theorem BindsFactorial.resolve_global : h.resolve 0 "fact" = factorialClosure := by
  rw [hf.ordered.resolve_eq hf.zero_lt_size, find?_of_scope? hf.global]
  rfl

theorem BindsFactorial.withArgument (n : Int) : (h.withArgument n).BindsFactorial where
  ordered := hf.ordered.newFrame hf.zero_lt_size _
  global := by
    rw [Heap.withArgument, scope?_newFrame, if_neg (Nat.ne_of_lt hf.zero_lt_size), hf.global]

/-- In the scope of a call, the parameter has the value of the argument. -/
theorem BindsFactorial.resolve_argument (n : Int) :
    (h.withArgument n).resolve h.size "n" = .int n := by
  rw [Heap.withArgument, hf.ordered.resolve_newFrame hf.zero_lt_size]
  rfl

/-- The scope of a call sees the function, which is bound in the scope around it. -/
theorem BindsFactorial.resolve_function (n : Int) :
    (h.withArgument n).resolve h.size "fact" = factorialClosure := by
  rw [Heap.withArgument, hf.ordered.resolve_newFrame hf.zero_lt_size, hf.resolve_global]
  rfl

end

end Heap

namespace Expr

/-- A call of the function, where it is seen, with an argument that changes nothing. -/
theorem evaluates_factorialCall {h : Heap} {out : String} {i : Nat}
    (hi : h.resolve i "fact" = Heap.factorialClosure) {e : Expr} {n : Int}
    (he : e.Evaluates i ⟨h, out⟩ (.ok (.int n), ⟨h, out⟩)) {o : Except Failure Value × State}
    (hbody : factorialBody.Evaluates h.size ⟨h.withArgument n, out⟩ o) :
    (Expr.call (.var "fact") [e]).Evaluates i ⟨h, out⟩ o := by
  have hcallee : (Expr.var "fact").Evaluates i ⟨h, out⟩ (.ok Heap.factorialClosure, ⟨h, out⟩) :=
    evaluates_var_of_resolve hi
  have hargs : InTurn i [e] ⟨h, out⟩ [.int n] ⟨h, out⟩ := .cons he .nil
  exact hcallee.call hargs rfl (by decide) hbody

section
variable {h : Heap} (hf : h.BindsFactorial) {n : Int} {out : String}
include hf

theorem evaluates_argument : (Expr.var "n").Evaluates h.size ⟨h.withArgument n, out⟩
    (.ok (.int n), ⟨h.withArgument n, out⟩) :=
  evaluates_var_of_resolve (hf.resolve_argument n)

theorem evaluates_factorialCondition :
    (Expr.binary .le (.var "n") (int 1)).Evaluates h.size ⟨h.withArgument n, out⟩
      (.ok (.bool (decide (n ≤ 1))), ⟨h.withArgument n, out⟩) :=
  (evaluates_argument hf).binary_int rfl

theorem evaluates_factorialBody_of_le (hn : n ≤ 1) :
    factorialBody.Evaluates h.size ⟨h.withArgument n, out⟩
      (.ok (.int 1), ⟨h.withArgument n, out⟩) := by
  refine (evaluates_factorialCondition hf).cond ?_
  rw [decide_eq_true hn, if_pos rfl]
  exact evaluates_literal _ _ _

theorem evaluates_factorialBody_of_lt (hn : 1 < n) {m : Int} {t : State}
    (hrec : factorialBody.Evaluates (h.withArgument n).size
      ⟨(h.withArgument n).withArgument (n - 1), out⟩ (.ok (.int m), t)) :
    factorialBody.Evaluates h.size ⟨h.withArgument n, out⟩ (.ok (.int (n * m)), t) := by
  have hpredecessor : (Expr.binary .subtract (.var "n") (int 1)).Evaluates h.size
      ⟨h.withArgument n, out⟩ (.ok (.int (n - 1)), _) := (evaluates_argument hf).binary_int rfl
  have hcall := evaluates_factorialCall (hf.resolve_function n) hpredecessor hrec
  refine (evaluates_factorialCondition hf).cond ?_
  rw [decide_eq_false (Int.not_le.2 hn), if_neg Bool.false_ne_true]
  exact (evaluates_argument hf).binary hcall

end

/-- The function comes to the factorial of its argument, which counts as one if it is negative. -/
theorem evaluates_factorialBody (out : String) (k : Nat) {n : Int} (hn : n.toNat = k) {h : Heap}
    (hf : h.BindsFactorial) : ∃ h', factorialBody.Evaluates h.size
      ⟨h.withArgument n, out⟩ (.ok (.int k.factorial), ⟨h', out⟩) ∧
        h'.BindsFactorial := by
  induction k generalizing n h with
  | zero =>
    have hle : n ≤ 1 := by omega
    exact ⟨_, evaluates_factorialBody_of_le hf hle, hf.withArgument n⟩
  | succ k ih =>
    rcases Int.lt_or_le 1 n with hlt | hle
    · have hpredecessor : (n - 1).toNat = k := by omega
      obtain ⟨h', hrec, hf'⟩ := ih hpredecessor (hf.withArgument n)
      have hproduct : n * (k.factorial : Int) = ((k + 1).factorial : Nat) := by
        rw [Nat.factorial_succ, Int.natCast_mul]
        congr 1
        omega
      rw [← hproduct]
      exact ⟨h', evaluates_factorialBody_of_lt hf hlt hrec, hf'⟩
    · -- The argument one ends the recursion as zero does.
      have hk : k = 0 := by omega
      subst hk
      exact ⟨_, evaluates_factorialBody_of_le hf hle, hf.withArgument n⟩

end Expr

namespace Heap

/-- The heap of the counting program when it has counted to `n`. -/
def counting (n : Int) : Heap :=
  Heap.fresh.put 0 "i" (.int n)

theorem counting_resolve (n : Int) : (counting n).resolve 0 "i" = .int n := rfl

theorem counting_assign (n m : Int) : (counting n).assign 0 "i" (.int m) = counting m :=
  put_put ..

end Heap

open Featherweight.Heap (counting)

namespace Expr

section
variable (out : String)

theorem evaluates_counted (n : Int) :
    (Expr.var "i").Evaluates 0 ⟨counting n, out⟩ (.ok (.int n), ⟨counting n, out⟩) :=
  evaluates_var_of_resolve (Heap.counting_resolve n)

theorem evaluates_countCondition (n bound : Int) : (countCondition bound).Evaluates 0
    ⟨counting n, out⟩ (.ok (.bool (decide (n < bound))), ⟨counting n, out⟩) :=
  (evaluates_counted out n).binary_int rfl

theorem evaluates_countBody (n : Int) : countBody.Evaluates 0 ⟨counting n, out⟩
    (.ok (.int (n + 1)), ⟨counting (n + 1), out⟩) := by
  have hsum : (Expr.binary .add (.var "i") (int 1)).Evaluates 0 ⟨counting n, out⟩
      (.ok (.int (n + 1)), _) := (evaluates_counted out n).binary_int rfl
  rw [← Heap.counting_assign n (n + 1)]
  exact Evaluates.assign hsum "i"

/-- Each round counts one further, as long as the bound is not reached. -/
theorem rounds_counting {a bound : Int} (k : Nat) (hk : a + k ≤ bound) : ∃ v,
    Rounds (countCondition bound) countBody 0 ⟨counting a, out⟩ k v ⟨counting (a + k), out⟩ := by
  induction k with
  | zero =>
    refine ⟨.undefined, ?_⟩
    rw [Int.natCast_zero, Int.add_zero]
    exact .start
  | succ k ih =>
    have hlt : a + k < bound := by omega
    obtain ⟨v, hrounds⟩ := ih (Int.le_of_lt hlt)
    have hcondition := evaluates_countCondition out (a + k) bound
    rw [decide_eq_true hlt] at hcondition
    have hnext := hrounds.next hcondition (evaluates_countBody out (a + k))
    rw [Int.add_assoc] at hnext
    exact ⟨_, hnext⟩

/-- The loop makes as many rounds as the bound is above the start, if it is. -/
theorem evaluates_countLoop (a bound : Int) : ∃ v, (Expr.loop (countCondition bound)
    countBody).Evaluates 0 ⟨counting a, out⟩ (.ok v, ⟨counting (max a bound), out⟩) := by
  obtain hle | hlt := le_or_gt bound a
  · rw [max_eq_left hle]
    have hcondition := evaluates_countCondition out a bound
    rw [decide_eq_false (Int.not_lt.2 hle)] at hcondition
    exact ⟨_, evaluates_loop_iff_rounds.2 ⟨0, _, _, .start, .done hcondition⟩⟩
  · have hreached : a + ((bound - a).toNat : Nat) = bound := by omega
    obtain ⟨v, hrounds⟩ := rounds_counting out _ (Int.le_of_eq hreached)
    have hcondition := evaluates_countCondition out bound bound
    rw [decide_eq_false (Int.lt_irrefl bound)] at hcondition
    rw [hreached] at hrounds
    rw [max_eq_right (Int.le_of_lt hlt)]
    exact ⟨_, evaluates_loop_iff_rounds.2 ⟨_, _, _, hrounds, .done hcondition⟩⟩

/-- The counting program comes to the greater of its two numbers, which its variable is left
with. -/
theorem evaluates_countProgram (a bound : Int) : (Sample.countProgram a bound).Evaluates 0
    ⟨.fresh, out⟩ (.ok (.int (max a bound)), ⟨counting (max a bound), out⟩) := by
  have hnew : "i" ∉ (Heap.fresh.bindings 0).names := List.not_mem_nil
  have hstart := (evaluates_literal (.int a) 0 ⟨.fresh, out⟩).declare hnew
  obtain ⟨v, hloop⟩ := evaluates_countLoop out a bound
  exact hstart.seq (hloop.seq (evaluates_counted out _))

/-- The factorial program comes to the factorial, and leaves the function in the global scope. -/
theorem evaluates_factorialProgram (n : Int) : ∃ h, (Sample.factorialProgram n).Evaluates 0
    ⟨.fresh, out⟩ (.ok (.int n.toNat.factorial), ⟨h, out⟩) ∧ h.BindsFactorial := by
  have hnew : "fact" ∉ (Heap.fresh.bindings 0).names := List.not_mem_nil
  have hdeclare := (evaluates_function ["n"] factorialBody 0 ⟨.fresh, out⟩).declare hnew
  have hf : (Heap.fresh.put 0 "fact" Heap.factorialClosure).BindsFactorial :=
    { ordered := Heap.wellFormed_fresh.ordered.put _ _ _
      global := rfl }
  obtain ⟨h, hbody, hf'⟩ := evaluates_factorialBody out _ (n := n) rfl hf
  have hcall := evaluates_factorialCall hf.resolve_global (evaluates_literal (.int n) _ _) hbody
  exact ⟨h, hdeclare.seq hcall, hf'⟩

end

end Expr

/-- Two of the samples are the factorial of five and the loop that counts from zero to three. With
any integers in their place, in a fresh global scope, the one comes to the factorial, or to one
below one, and the other to the greater number. Neither prints, and each leaves its one name
bound. -/
theorem Sample.factorial_while_result (out : String) :
    ((Sample.find? "factorial").map Sample.program = some (factorialProgram 5) ∧
      (Sample.find? "while").map Sample.program = some (countProgram 0 3)) ∧
    (∀ n : Int, ∃ h, (factorialProgram n).Evaluates 0 ⟨.fresh, out⟩
        (.ok (.int (if 1 ≤ n then n.toNat.factorial else 1)), ⟨h, out⟩) ∧
      h.bindings 0 = [("fact", .closure ["n"] factorialBody 0)]) ∧
    ∀ a n : Int, ∃ h, (countProgram a n).Evaluates 0 ⟨.fresh, out⟩
        (.ok (.int (max a n)), ⟨h, out⟩) ∧ h.bindings 0 = [("i", .int (max a n))] := by
  refine ⟨⟨rfl, rfl⟩, fun n => ?_, fun a n => ?_⟩
  · obtain ⟨h, hprogram, hf⟩ := Expr.evaluates_factorialProgram out n
    refine ⟨h, ?_, Heap.bindings_of_scope? hf.global⟩
    split
    · exact hprogram
    · have hn : n.toNat = 0 := by omega
      rwa [hn] at hprogram
  · exact ⟨_, Expr.evaluates_countProgram out a n, rfl⟩

end Featherweight
