import Featherweight.Eval.Basic

/-! Fuel only decides whether evaluation comes to a result, never to which one. Each piece of the
evaluator keeps the order `Below`, so evaluation with more fuel is above that with less. -/
namespace Featherweight

namespace Action

/-- Where `m` comes to a result, `m'` comes to the same. -/
def Below {α : Type} (m m' : Action α) : Prop :=
  ∀ s r, m s = some r → m' s = some r

theorem Below.refl {α : Type} (m : Action α) : Below m m := fun _ _ h => h

theorem Below.outOfFuel {α : Type} (m : Action α) : Below outOfFuel m :=
  fun _ _ h => nomatch h

theorem Below.bind {α β : Type} {m m' : Action α} {f f' : α → Action β} (hm : Below m m')
    (hf : ∀ a, Below (f a) (f' a)) : Below (m >>= f) (m' >>= f') := by
  intro s r h
  rw [bind_apply] at h ⊢
  cases hs : m s with
  | none => simp [hs] at h
  | some p =>
    rw [hm s p hs]
    rw [hs] at h
    rcases p with ⟨_ | a, s'⟩
    · exact h
    · exact hf a s' r h

theorem Below.mapM {f f' : Expr → Action Value} (hf : ∀ e, Below (f e) (f' e))
    (es : List Expr) : Below (es.mapM f) (es.mapM f') := by
  induction es with
  | nil => exact .refl _
  | cons e es ih =>
    simp only [List.mapM_cons]
    exact (hf e).bind fun v => ih.bind fun vs => .refl _

theorem Below.rounds {c c' b b' : Action Value} (hc : Below c c') (hb : Below b b')
    (node : Expr) {n n' : Nat} (hn : n ≤ n') :
    Below (rounds c b node n) (rounds c' b' node n') := by
  induction n generalizing n' with
  | zero => exact .outOfFuel _
  | succ n ih =>
    cases n' with
    | zero => omega
    | succ n' =>
      refine hb.bind fun v => hc.bind fun w => ?_
      split
      · exact ih (by omega)
      · exact .refl _
      · exact .refl _

theorem Below.loop {c c' b b' : Action Value} (hc : Below c c') (hb : Below b b')
    (node : Expr) {n n' : Nat} (hn : n ≤ n') : Below (loop c b node n) (loop c' b' node n') := by
  refine hc.bind fun v => ?_
  split
  · exact hc.rounds hb node hn
  · exact .refl _

theorem Below.apply {eval eval' : Nat → Expr → Action Value}
    (h : ∀ i e, Below (eval i e) (eval' i e)) (params : List Name) (body : Expr)
    (captured : Nat) (values : List Value) :
    Below (apply eval params body captured values) (apply eval' params body captured values) := by
  unfold Action.apply
  split
  · exact (Below.refl _).bind fun _ => (Below.refl _).bind fun _ => h _ _
  · exact .refl _

theorem Below.call {eval eval' : Nat → Expr → Action Value}
    (h : ∀ i e, Below (eval i e) (eval' i e)) (i : Nat) (node : Expr) (args : List Expr)
    (v : Value) : Below (call eval i node args v) (call eval' i node args v) := by
  cases v with
  | closure params body captured =>
    refine (Below.mapM (h i) args).bind fun vs => ?_
    split
    · exact .apply h params body captured vs
    · exact .refl _
  | _ => exact .refl _

end Action

open Featherweight.Action

/-- More fuel keeps a result. -/
theorem Expr.eval_below {fuel fuel' : Nat} (h : fuel ≤ fuel') (i : Nat) (e : Expr) :
    Below (e.eval fuel i) (e.eval fuel' i) := by
  induction fuel generalizing fuel' i e with
  | zero => exact .outOfFuel _
  | succ fuel ih =>
    cases fuel' with
    | zero => omega
    | succ fuel' =>
      have ih := fun i e => @ih fuel' (by omega) i e
      cases e with
      | literal v => exact .refl _
      | var x => exact .refl _
      | print e => exact (ih i e).bind fun v => .refl _
      | binary op l r => exact (ih i l).bind fun v => (ih i r).bind fun w => .refl _
      | cond c t e =>
        refine (ih i c).bind fun v => ?_
        split
        · exact ih i t
        · exact ih i e
        · exact .refl _
      | loop c b => exact (ih i c).loop (ih i b) _ (by omega)
      | seq a b => exact (ih i a).bind fun _ => ih i b
      | declare x e => exact (ih i e).bind fun v => .refl _
      | assign x e => exact (ih i e).bind fun v => .refl _
      | function params body => exact .refl _
      | call f args => exact (ih i f).bind fun v => .call ih i _ args v

/-- In scope `i` and from state `s` the program comes to the result `r`. -/
def Expr.Evaluates (e : Expr) (i : Nat) (s : State) (r : Except Failure Value × State) : Prop :=
  ∃ fuel, e.eval fuel i s = some r

/-- A program comes to one result at most. -/
theorem Expr.Evaluates.unique {e : Expr} {i : Nat} {s : State}
    {r r' : Except Failure Value × State} (h : e.Evaluates i s r) (h' : e.Evaluates i s r') :
    r = r' := by
  obtain ⟨fuel, h⟩ := h
  obtain ⟨fuel', h'⟩ := h'
  have := Expr.eval_below (Nat.le_max_left fuel fuel') i e s r h
  rw [Expr.eval_below (Nat.le_max_right fuel fuel') i e s r' h'] at this
  exact (Option.some.inj this).symm

end Featherweight
