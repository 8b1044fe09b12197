import Featherweight.Proofs.Ending

/-! Loops, round by round. A loop makes some number of rounds, each with a condition that is true
and a body that comes to a value, and then it ends in one of five ways; or it goes on without an
end. The check of the condition is the same after every round, but a condition that is no bool is
an error only when a round has been made. -/
namespace Featherweight

namespace Expr

/-! ## Rounds and ends -/

/-- Rounds of a loop in scope `i` that starts in state `s`. The value is that of the last body. -/
inductive Rounds (c b : Expr) (i : Nat) (s : State) : Nat → Value → State → Prop
  | start : Rounds c b i s 0 .undefined s
  | next {n v w t u u'} : Rounds c b i s n v t → c.Evaluates i t (.ok (.bool true), u) →
      b.Evaluates i u (.ok w, u') → Rounds c b i s (n + 1) w u'

/-- How a loop ends that has made `n` rounds, the last with the value `v`. -/
inductive LoopEnds (c b : Expr) (i n : Nat) (v : Value) (s : State) :
    Except Failure Value → State → Prop
  | done {t} : c.Evaluates i s (.ok (.bool false), t) → LoopEnds c b i n v s (.ok v) t
  | skipped {w t} : n = 0 → c.Evaluates i s (.ok w, t) → w.kind ≠ .bool →
      LoopEnds c b i n v s (.ok .undefined) t
  | mismatch {w t} : 0 < n → c.Evaluates i s (.ok w, t) → w.kind ≠ .bool →
      LoopEnds c b i n v s (.error (.error (.loopCondition w.kind) (some (.loop c b)))) t
  | condition {e t} : c.Evaluates i s (.error e, t) → LoopEnds c b i n v s (.error e) t
  | body {e t u} : c.Evaluates i s (.ok (.bool true), t) → b.Evaluates i t (.error e, u) →
      LoopEnds c b i n v s (.error e) u

end Expr

/-! ## From the condition on -/

namespace Action

/-- How a loop goes on when its condition has come to a value. So far it has made `n` rounds, the
last with the value `v`. -/
def proceed (condition body : Action Value) (node : Expr) (fuel n : Nat) (v : Value) :
    Value → Action Value
  | .bool true => rounds condition body node fuel
  | .bool false => pure v
  | w => if n = 0 then pure .undefined else fail (.loopCondition w.kind) (some node)

section
variable (c b : Action Value) (node : Expr) (fuel : Nat)

theorem loop_eq_proceed :
    loop c b node fuel = c >>= proceed c b node fuel 0 .undefined := by
  rw [loop]
  congr 1
  funext w
  cases w with
  | bool w => cases w <;> rfl
  | _ => rfl

theorem rounds_succ (n : Nat) :
    rounds c b node (fuel + 1) = b >>= fun v => c >>= proceed c b node fuel (n + 1) v := rfl

theorem proceed_of_kind (n : Nat) (v : Value) {w : Value} (hw : w.kind ≠ .bool) :
    proceed c b node fuel n v w =
      if n = 0 then pure .undefined else fail (.loopCondition w.kind) (some node) := by
  cases w with
  | bool => exact absurd rfl hw
  | _ => rfl

end

theorem Below.proceed {c c' b b' : Action Value} (hc : Below c c') (hb : Below b b') (node : Expr)
    {fuel fuel' : Nat} (h : fuel ≤ fuel') (n : Nat) (v w : Value) :
    Below (proceed c b node fuel n v w) (proceed c' b' node fuel' n v w) := by
  cases w with
  | bool w =>
    cases w with
    | true => exact hc.rounds hb node h
    | false => exact .refl _
  | _ => exact .refl _

end Action

open Featherweight.Action

namespace Expr

/-! ## What is left of a loop -/

section
variable (c b : Expr) (i fuel left n : Nat) (v : Value)

/-- The loop from its condition on, after `n` rounds. There is `fuel` for the condition and the
body, and `left` for more rounds. -/
def resume : Action Value :=
  c.eval fuel i >>= proceed (c.eval fuel i) (b.eval fuel i) (.loop c b) left n v

end

section
variable {c b : Expr} {i n : Nat} {v : Value} {s t u : State} {r : Except Failure Value}

theorem evaluates_loop : (Expr.loop c b).Evaluates i s (r, t) ↔
    EndsIn (fun fuel => resume c b i fuel fuel 0 .undefined) s (r, t) := by
  rw [evaluates_iff_endsIn]
  simp only [eval, loop_eq_proceed, resume]

/-- From its condition on a loop ends, or it makes a round and is at its condition again. -/
theorem ends_or_round {fuel left : Nat} (h : resume c b i fuel left n v s = some (r, t)) :
    LoopEnds c b i n v s r t ∨ ∃ left' w u u', left = left' + 1 ∧
      c.Evaluates i s (.ok (.bool true), u) ∧ b.Evaluates i u (.ok w, u') ∧
      resume c b i fuel left' (n + 1) w u' = some (r, t) := by
  rcases bind_eq_some_iff.1 h with ⟨e, rfl, hc⟩ | ⟨w, u, hc, h⟩
  · exact .inl (.condition ⟨fuel, hc⟩)
  by_cases hw : w.kind = .bool
  · obtain ⟨x, rfl⟩ := Value.kind_eq_bool_iff.1 hw
    cases x with
    | false =>
      cases h
      exact .inl (.done ⟨fuel, hc⟩)
    | true =>
      cases left with
      | zero => cases h
      | succ left =>
        rw [proceed, rounds_succ _ _ _ _ n] at h
        rcases bind_eq_some_iff.1 h with ⟨e, rfl, hb⟩ | ⟨w, u', hb, h⟩
        · exact .inl (.body ⟨fuel, hc⟩ ⟨fuel, hb⟩)
        · exact .inr ⟨left, w, u, u', rfl, ⟨fuel, hc⟩, ⟨fuel, hb⟩, h⟩
  · rw [proceed_of_kind _ _ _ _ _ _ hw] at h
    by_cases hn : n = 0
    · rw [if_pos hn] at h
      cases h
      exact .inl (.skipped hn ⟨fuel, hc⟩ hw)
    · rw [if_neg hn] at h
      cases h
      exact .inl (.mismatch (Nat.pos_of_ne_zero hn) ⟨fuel, hc⟩ hw)

/-- What is left of a loop comes to one of the ends, maybe after more rounds. -/
theorem Rounds.ends {fuel left : Nat} (hr : Rounds c b i s n v u)
    (h : resume c b i fuel left n v u = some (r, t)) :
    ∃ n v u, Rounds c b i s n v u ∧ LoopEnds c b i n v u r t := by
  -- On the fuel for rounds; those made so far grow by one each time.
  induction left generalizing n v u with
  | zero =>
    rcases ends_or_round h with hend | ⟨left', w, u', u'', hleft, -⟩
    · exact ⟨n, v, u, hr, hend⟩
    · cases hleft
  | succ left ih =>
    rcases ends_or_round h with hend | ⟨left', w, u', u'', hleft, hc, hb, h⟩
    · exact ⟨n, v, u, hr, hend⟩
    · cases hleft
      exact ih (hr.next hc hb) h

theorem below_resume {fuel fuel' left left' : Nat} (h : fuel ≤ fuel') (hleft : left ≤ left') :
    Below (resume c b i fuel left n v) (resume c b i fuel' left' n v) :=
  (eval_below h i c).bind fun w =>
    (eval_below h i c).proceed (eval_below h i b) _ hleft n v w

/-- Where the condition comes to a value, what is left of the loop goes on with that value. -/
theorem resumes_of_condition {w : Value} (hc : c.Evaluates i s (.ok w, u))
    (h : EndsIn (fun fuel => proceed (c.eval fuel i) (b.eval fuel i) (.loop c b) fuel n v w) u
      (r, t)) : EndsIn (fun fuel => resume c b i fuel fuel n v) s (r, t) := by
  refine (endsIn_bind (c.steady_eval i) fun w => ?_).2 (.inr ⟨w, u, hc, h⟩)
  exact fun _ _ h => (eval_below h i c).proceed (eval_below h i b) _ h n v w

/-- The ends are ends of what is left of the loop. -/
theorem LoopEnds.resumes (h : LoopEnds c b i n v s r t) :
    EndsIn (fun fuel => resume c b i fuel fuel n v) s (r, t) := by
  cases h with
  | done hc => exact resumes_of_condition hc ⟨0, rfl⟩
  | @skipped w _ hn hc hw =>
    refine resumes_of_condition hc ⟨0, ?_⟩
    show proceed _ _ _ _ n v w t = _
    rw [proceed_of_kind _ _ _ _ _ _ hw, if_pos hn, pure_apply]
  | @mismatch w _ hn hc hw =>
    refine resumes_of_condition hc ⟨0, ?_⟩
    show proceed _ _ _ _ n v w t = _
    rw [proceed_of_kind _ _ _ _ _ _ hw, if_neg (Nat.ne_of_gt hn), fail]
  | @condition e _ hc =>
    obtain ⟨fuel, hc⟩ := hc
    exact ⟨fuel, bind_eq_some_iff.2 (.inl ⟨e, rfl, hc⟩)⟩
  | @body e _ _ hc hb =>
    obtain ⟨fuel, hb⟩ := hb
    -- The round takes a unit of its own, and the body has a unit more than it needs.
    refine resumes_of_condition hc ⟨fuel + 1, ?_⟩
    show rounds _ _ _ (fuel + 1) _ = _
    rw [rounds_succ _ _ _ _ n]
    exact bind_eq_some_iff.2 (.inl ⟨e, rfl, eval_below (Nat.le_succ fuel) i b _ _ hb⟩)

/-- A round may come before what is left of the loop. -/
theorem resumes_of_round {w : Value} {u' : State} (hc : c.Evaluates i s (.ok (.bool true), u))
    (hb : b.Evaluates i u (.ok w, u'))
    (h : EndsIn (fun fuel => resume c b i fuel fuel (n + 1) w) u' (r, t)) :
    EndsIn (fun fuel => resume c b i fuel fuel n v) s (r, t) := by
  obtain ⟨fuel, hb⟩ := hb
  obtain ⟨fuel', h⟩ := h
  refine resumes_of_condition hc ⟨fuel + fuel' + 1, ?_⟩
  show rounds _ _ _ (fuel + fuel' + 1) _ = _
  rw [rounds_succ _ _ _ _ n]
  have hb := eval_below (show fuel ≤ fuel + fuel' + 1 by omega) i b _ _ hb
  have h := below_resume (show fuel' ≤ fuel + fuel' + 1 by omega)
    (show fuel' ≤ fuel + fuel' by omega) _ _ h
  exact bind_eq_some_iff.2 (.inr ⟨w, u', hb, h⟩)

/-- What follows some rounds follows the start. -/
theorem Rounds.resumes (hr : Rounds c b i s n v u)
    (h : EndsIn (fun fuel => resume c b i fuel fuel n v) u (r, t)) :
    (Expr.loop c b).Evaluates i s (r, t) := by
  induction hr with
  | start => exact evaluates_loop.2 h
  | next _ hc hb ih => exact ih (resumes_of_round hc hb h)

theorem evaluates_loop_iff_rounds : (Expr.loop c b).Evaluates i s (r, t) ↔
    ∃ n v u, Rounds c b i s n v u ∧ LoopEnds c b i n v u r t := by
  constructor
  · intro h
    obtain ⟨fuel, h⟩ := evaluates_loop.1 h
    exact Rounds.start.ends h
  · intro h
    obtain ⟨n, v, u, hr, hend⟩ := h
    exact hr.resumes hend.resumes

/-! ## The number of rounds -/

/-- So many rounds are made in one way only. -/
theorem Rounds.unique {v' : Value} {u' : State} (h : Rounds c b i s n v u)
    (h' : Rounds c b i s n v' u') : v = v' ∧ u = u' := by
  induction h generalizing v' u' with
  | start =>
    cases h'
    exact ⟨rfl, rfl⟩
  | next _ hc hb ih =>
    cases h' with
    | next hr hc' hb' =>
      obtain ⟨-, rfl⟩ := ih hr
      cases hc.unique hc'
      cases hb.unique hb'
      exact ⟨rfl, rfl⟩

/-- A loop at an end makes no further round. -/
theorem LoopEnds.not_round (h : LoopEnds c b i n v s r t) {w : Value} {u u' : State}
    (hc : c.Evaluates i s (.ok (.bool true), u)) : ¬ b.Evaluates i u (.ok w, u') := by
  intro hb
  cases h with
  | done hc' | condition hc' => cases hc.unique hc'
  | skipped _ hc' hw | mismatch _ hc' hw =>
    cases hc.unique hc'
    exact hw rfl
  | body hc' hb' =>
    cases hc.unique hc'
    cases hb.unique hb'

/-- Of a number of rounds, each has been made. -/
theorem Rounds.earlier {m : Nat} (h : Rounds c b i s n v u) (hm : m < n) :
    ∃ v' t t' w u', Rounds c b i s m v' t ∧ c.Evaluates i t (.ok (.bool true), t') ∧
      b.Evaluates i t' (.ok w, u') := by
  induction h with
  | start => cases hm
  | @next n _ _ _ _ _ hr hc hb ih =>
    rcases Nat.lt_or_eq_of_le (Nat.le_of_lt_succ hm) with hlt | rfl
    · exact ih hlt
    · exact ⟨_, _, _, _, _, hr, hc, hb⟩

/-! ## Loops without an end -/

/-- The loop waits for its condition or for its body without end. -/
def Hangs (c b : Expr) (i : Nat) (s : State) : Prop :=
  c.Diverges i s ∨ ∃ t, c.Evaluates i s (.ok (.bool true), t) ∧ b.Diverges i t

theorem LoopEnds.not_hangs (h : LoopEnds c b i n v s r t) : ¬ Hangs c b i s := by
  intro hangs
  rcases hangs with hdiverges | ⟨u, hc, hdiverges⟩
  · rw [diverges_iff] at hdiverges
    cases h with
    | done hc | skipped _ hc _ | mismatch _ hc _ | condition hc | body hc _ =>
      exact hdiverges _ _ hc
  · rw [diverges_iff] at hdiverges
    cases h with
    | done hc' | condition hc' => cases hc.unique hc'
    | skipped _ hc' hw | mismatch _ hc' hw =>
      cases hc.unique hc'
      exact hw rfl
    | body hc' hb =>
      cases hc.unique hc'
      exact hdiverges _ _ hb

/-- A loop that makes another round does not hang in it. -/
theorem not_hangs_of_round {w : Value} {u' : State} (hc : c.Evaluates i s (.ok (.bool true), u))
    (hb : b.Evaluates i u (.ok w, u')) : ¬ Hangs c b i s := by
  intro hangs
  rcases hangs with hdiverges | ⟨t, hc', hdiverges⟩
  · exact diverges_iff.1 hdiverges _ _ hc
  · cases hc.unique hc'
    exact diverges_iff.1 hdiverges _ _ hb

/-- At its condition a loop ends, or hangs, or makes another round. -/
theorem ends_or_hangs_or_round (c b : Expr) (i n : Nat) (v : Value) (s : State) :
    (∃ r t, LoopEnds c b i n v s r t) ∨ Hangs c b i s ∨
      ∃ t w u, c.Evaluates i s (.ok (.bool true), t) ∧ b.Evaluates i t (.ok w, u) := by
  by_cases hdiverges : c.Diverges i s
  · exact .inr (.inl (.inl hdiverges))
  obtain ⟨o, t, hc⟩ : ∃ o t, c.Evaluates i s (o, t) := by
    simpa [diverges_iff] using hdiverges
  rcases o with e | w
  · exact .inl ⟨_, _, .condition hc⟩
  by_cases hw : w.kind = .bool
  · obtain ⟨x, rfl⟩ := Value.kind_eq_bool_iff.1 hw
    cases x with
    | false => exact .inl ⟨_, _, .done hc⟩
    | true =>
      by_cases hdiverges : b.Diverges i t
      · exact .inr (.inl (.inr ⟨t, hc, hdiverges⟩))
      obtain ⟨o, u, hb⟩ : ∃ o u, b.Evaluates i t (o, u) := by
        simpa [diverges_iff] using hdiverges
      rcases o with e | w
      · exact .inl ⟨_, _, .body hc hb⟩
      · exact .inr (.inr ⟨t, w, u, hc, hb⟩)
  · rcases Nat.eq_zero_or_pos n with hn | hn
    · exact .inl ⟨_, _, .skipped hn hc hw⟩
    · exact .inl ⟨_, _, .mismatch hn hc hw⟩

/-- A loop has no result when it makes rounds without end, or hangs after some of them. -/
theorem diverges_loop_iff : (Expr.loop c b).Diverges i s ↔
    (∀ n, ∃ v u, Rounds c b i s n v u) ∨ ∃ n v u, Rounds c b i s n v u ∧ Hangs c b i u := by
  rw [diverges_iff]
  constructor
  · intro hno
    by_cases hangs : ∃ n v u, Rounds c b i s n v u ∧ Hangs c b i u
    · exact .inr hangs
    -- Without an end and without a wait, each round is followed by another.
    refine .inl fun n => ?_
    induction n with
    | zero => exact ⟨_, _, .start⟩
    | succ n ih =>
      obtain ⟨v, u, hr⟩ := ih
      rcases ends_or_hangs_or_round c b i n v u with ⟨r, t, hend⟩ | h | ⟨t, w, u', hc, hb⟩
      · exact absurd (evaluates_loop_iff_rounds.2 ⟨n, v, u, hr, hend⟩) (hno r t)
      · exact absurd ⟨n, v, u, hr, h⟩ hangs
      · exact ⟨w, u', hr.next hc hb⟩
  · intro h r t he
    obtain ⟨n, v, u, hr, hend⟩ := evaluates_loop_iff_rounds.1 he
    rcases h with hrounds | ⟨m, v', u', hr', hangs⟩
    · obtain ⟨_, _, hr'⟩ := hrounds (n + 1)
      obtain ⟨_, _, _, _, _, hr', hc, hb⟩ := hr'.earlier (Nat.lt_succ_self n)
      obtain ⟨-, rfl⟩ := hr.unique hr'
      exact hend.not_round hc hb
    · -- After the smaller of the two numbers one account has another round, and the other has none.
      rcases Nat.lt_trichotomy m n with hlt | rfl | hlt
      · obtain ⟨_, _, _, _, _, hr, hc, hb⟩ := hr.earlier hlt
        obtain ⟨-, rfl⟩ := hr.unique hr'
        exact not_hangs_of_round hc hb hangs
      · obtain ⟨-, rfl⟩ := hr.unique hr'
        exact hend.not_hangs hangs
      · obtain ⟨_, _, _, _, _, hr', hc, hb⟩ := hr'.earlier hlt
        obtain ⟨-, rfl⟩ := hr.unique hr'
        exact hend.not_round hc hb

end

/-- A loop ends exactly as one of its ends says after some number of rounds, and it has no result
exactly when there is no such end: when the rounds go on without end, or one of them hangs. -/
theorem evaluates_loop_iff (c b : Expr) (i : Nat) (s : State) :
    (∀ r t, (Expr.loop c b).Evaluates i s (r, t) ↔
      ∃ n v u, Rounds c b i s n v u ∧ LoopEnds c b i n v u r t) ∧
    ((Expr.loop c b).Diverges i s ↔
      ¬ ∃ n v u r t, Rounds c b i s n v u ∧ LoopEnds c b i n v u r t) ∧
    ((Expr.loop c b).Diverges i s ↔
      (∀ n, ∃ v u, Rounds c b i s n v u) ∨ ∃ n v u, Rounds c b i s n v u ∧ Hangs c b i u) := by
  refine ⟨fun r t => evaluates_loop_iff_rounds, ?_, diverges_loop_iff⟩
  rw [diverges_iff]
  constructor
  · intro hno h
    obtain ⟨n, v, u, r, t, hr, hend⟩ := h
    exact hno r t (evaluates_loop_iff_rounds.2 ⟨n, v, u, hr, hend⟩)
  · intro hno r t he
    obtain ⟨n, v, u, hr, hend⟩ := evaluates_loop_iff_rounds.1 he
    exact hno ⟨n, v, u, r, t, hr, hend⟩

/-- Two rounds are made before the condition is false. -/
example :
    (Expr.loop (.binary .lt (.var "i") (int 2))
        (.assign "i" (.binary .add (.var "i") (int 1)))).eval 5 0
      ⟨⟨#[⟨none, [("i", .int 0)]⟩]⟩, ""⟩ =
    some (.ok (.int 2), ⟨⟨#[⟨none, [("i", .int 2)]⟩]⟩, ""⟩) := rfl

end Expr

end Featherweight
