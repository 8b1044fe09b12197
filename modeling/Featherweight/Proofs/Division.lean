import Featherweight.Proofs.Ending
import Featherweight.Proofs.WellFormed

/-! Division of integers. The quotient is rounded toward zero and the remainder has the sign of the
dividend; there is one such pair. It is found by dividing the magnitudes and putting the sign
back. -/
namespace Featherweight

/-- Division of `l` by `r` with rounding toward zero. -/
structure Truncates (l r q m : Int) : Prop where
  sum : l = q * r + m
  smaller : m.natAbs < r.natAbs
  sign : m = 0 ∨ m.sign = l.sign

theorem truncates_tdiv (l : Int) {r : Int} (hr : r ≠ 0) : Truncates l r (l.tdiv r) (l.tmod r) where
  sum := (Int.tdiv_mul_add_tmod l r).symm
  smaller := by
    rw [Int.natAbs_tmod]
    exact Nat.mod_lt _ (Int.natAbs_pos.2 hr)
  sign := by
    by_cases hdvd : r ∣ l
    · exact .inl (Int.tmod_eq_zero_of_dvd hdvd)
    · exact .inr (by rw [Int.sign_tmod, if_neg hdvd])

theorem Truncates.remainder_sign {l r q m : Int} (h : Truncates l r q m) :
    (0 ≤ l → 0 ≤ m) ∧ (l ≤ 0 → m ≤ 0) := by
  rcases h.sign with hm | hm
  · omega
  · have hpos : 0 ≤ l.sign ↔ 0 ≤ m := hm ▸ Int.sign_nonneg_iff
    have hneg : l.sign ≤ 0 ↔ m ≤ 0 := hm ▸ Int.sign_nonpos_iff
    exact ⟨fun hl => hpos.1 (Int.sign_nonneg_iff.2 hl), fun hl => hneg.1 (Int.sign_nonpos_iff.2 hl)⟩

/-- Two remainders of one dividend have the same sign, so they differ by less than the divisor. -/
theorem Truncates.unique {l r q m q' m' : Int} (h : Truncates l r q m) (h' : Truncates l r q' m') :
    q = q' ∧ m = m' := by
  have hdiff : m - m' = r * (q' - q) := by
    have hsum := h.sum
    have hsum' := h'.sum
    rw [Int.mul_sub, Int.mul_comm r, Int.mul_comm r]
    omega
  have hsmaller : (m - m').natAbs < r.natAbs := by
    have hm := h.smaller
    have hm' := h'.smaller
    obtain ⟨hpos, hneg⟩ := h.remainder_sign
    obtain ⟨hpos', hneg'⟩ := h'.remainder_sign
    omega
  have hm : m - m' = 0 := Int.eq_zero_of_dvd_of_natAbs_lt_natAbs ⟨q' - q, hdiff⟩ hsmaller
  have hr : r ≠ 0 := by omega
  have hq : q' - q = 0 := (Int.mul_eq_zero.1 (hdiff ▸ hm)).resolve_left hr
  omega

/-- Division by way of the magnitudes: their quotient gets a minus where the signs differ, and the
remainder is what is left of the dividend. -/
def signedDivMod (l r : Int) : Int × Int :=
  let magnitude : Int := (l.natAbs / r.natAbs : Nat)
  let quotient := if decide (l < 0) = decide (r < 0) then magnitude else -magnitude
  (quotient, l - quotient * r)

theorem signedDivMod_eq (l r : Int) : signedDivMod l r = (l.tdiv r, l.tmod r) := by
  have hquotient : (signedDivMod l r).1 = l.tdiv r := by
    -- By the two signs, as rounding toward zero is defined.
    cases l with
    | ofNat a =>
      cases r with
      | ofNat b =>
        have ha : ¬ ((a : Int) < 0) := Int.not_lt.2 (Int.natCast_nonneg a)
        have hb : ¬ ((b : Int) < 0) := Int.not_lt.2 (Int.natCast_nonneg b)
        simp [signedDivMod, Int.tdiv, ha, hb]
      | negSucc b => simp [signedDivMod, Int.tdiv]
    | negSucc a => cases r <;> simp [signedDivMod, Int.tdiv]
  refine Prod.ext hquotient ?_
  show l - (signedDivMod l r).1 * r = l.tmod r
  rw [hquotient, Int.tmod_def, Int.mul_comm]

theorem divMod?_eq_signedDivMod {l r : Int} (hr : r ≠ 0) :
    divMod? l r = some (signedDivMod l r) := by
  rw [divMod?, if_neg hr, signedDivMod_eq]

namespace Expr
variable {op : Operator} {a b : Expr} {l r : Int} {i : Nat} {s t u : State}

/-- A division of integers has one result. -/
theorem division_iff (ha : a.Evaluates i s (.ok (.int l), t))
    (hb : b.Evaluates i t (.ok (.int r), u)) (o : Except Failure Value × State) :
    (Expr.binary op a b).Evaluates i s o ↔
      o = ((op.compute l r).mapError fun cause => .error cause (some (.binary op a b)), u) :=
  (ha.binary hb).iff_eq o

theorem compute_of_ne_zero {q m : Int} (h : divMod? l r = some (q, m)) :
    Operator.divide.compute l r = .ok (.int q) ∧ Operator.mod.compute l r = .ok (.int m) := by
  simp [Operator.compute, h]

theorem compute_zero (hop : op = .divide ∨ op = .mod) (l : Int) :
    op.compute l 0 = .error .divisionByZero := by
  rcases hop with rfl | rfl <;> rfl

/-- Only a divisor of zero makes an arithmetic error of a division, and this is attached to it. -/
theorem division_fails_iff (hop : op = .divide ∨ op = .mod)
    (ha : a.Evaluates i s (.ok (.int l), t)) (hb : b.Evaluates i t (.ok (.int r), u))
    (f : Failure) (t' : State) : (Expr.binary op a b).Evaluates i s (.error f, t') ↔
      r = 0 ∧ f = .error .divisionByZero (some (.binary op a b)) ∧ t' = u := by
  rw [division_iff ha hb]
  by_cases hr : r = 0
  · rw [hr, compute_zero hop]
    simp [Except.mapError]
  · obtain ⟨hdivide, hmod⟩ := compute_of_ne_zero (divMod?_eq_signedDivMod (l := l) hr)
    rcases hop with rfl | rfl
    · simp [hdivide, Except.mapError, hr]
    · simp [hmod, Except.mapError, hr]

end Expr

/-- Integers are divided with rounding toward zero. For a divisor other than zero there is just one
quotient and remainder of the dividend, and they are those of the magnitudes with the sign put back;
a minus before the dividend goes to both, one before the divisor to the quotient alone. The two
operators on programs that come to these integers give just these values, in the state that the
programs leave. They fail only for a divisor of zero, with an arithmetic error at their node. -/
theorem divMod?_truncates (l r : Int) :
    (r ≠ 0 → ∃ q m, divMod? l r = some (q, m) ∧ (q, m) = signedDivMod l r ∧
      (∀ q' m', Truncates l r q' m' ↔ q' = q ∧ m' = m) ∧
      divMod? (-l) r = some (-q, -m) ∧ divMod? l (-r) = some (-q, m) ∧
      ∀ a b i s t u, a.Evaluates i s (.ok (.int l), t) → b.Evaluates i t (.ok (.int r), u) →
        (∀ o, (Expr.binary .divide a b).Evaluates i s o ↔ o = (.ok (.int q), u)) ∧
        ∀ o, (Expr.binary .mod a b).Evaluates i s o ↔ o = (.ok (.int m), u)) ∧
    ∀ op a b i s t u, op = .divide ∨ op = .mod →
      a.Evaluates i s (.ok (.int l), t) → b.Evaluates i t (.ok (.int r), u) →
      ∀ f t', (Expr.binary op a b).Evaluates i s (.error f, t') ↔
        r = 0 ∧ f = .error .divisionByZero (some (.binary op a b)) ∧ t' = u := by
  refine ⟨fun hr => ?_, fun op a b i s t u hop ha hb => Expr.division_fails_iff hop ha hb⟩
  have hdiv : divMod? l r = some (l.tdiv r, l.tmod r) := by rw [divMod?, if_neg hr]
  refine ⟨l.tdiv r, l.tmod r, hdiv, (signedDivMod_eq l r).symm, ?_, ?_, ?_, ?_⟩
  · intro q' m'
    constructor
    · exact fun h => h.unique (truncates_tdiv l hr)
    · intro h
      rw [h.1, h.2]
      exact truncates_tdiv l hr
  · rw [divMod?, if_neg hr, Int.neg_tdiv, Int.neg_tmod]
  · rw [divMod?, if_neg (Int.neg_ne_zero.2 hr), Int.tdiv_neg, Int.tmod_neg]
  · intro a b i s t u ha hb
    obtain ⟨hdivide, hmod⟩ := Expr.compute_of_ne_zero hdiv
    constructor
    · intro o
      rw [Expr.division_iff ha hb, hdivide]
      rfl
    · intro o
      rw [Expr.division_iff ha hb, hmod]
      rfl

/-- The dividend is assigned to a name, from which the divisor is computed after it. -/
theorem dividing_assigned :
    ∃ u : State, u.heap.bindings 0 = [("x", .int (-7))] ∧
      (Expr.binary .divide (.assign "x" (.int (-7))) (.binary .add (.var "x") (.int 9))).Evaluates 0
        ⟨.fresh, ""⟩ (.ok (.int (-3)), u) ∧
      (Expr.binary .mod (.assign "x" (.int (-7))) (.binary .add (.var "x") (.int 9))).Evaluates 0
        ⟨.fresh, ""⟩ (.ok (.int (-1)), u) ∧
      (Expr.binary .mod (.assign "x" (.int (-7))) (.binary .add (.var "x") (.int 7))).Evaluates 0
        ⟨.fresh, ""⟩ (.error (.error .divisionByZero (some (.binary .mod (.assign "x" (.int (-7)))
          (.binary .add (.var "x") (.int 7))))), u) := by
  have hdividend : (Expr.assign "x" (.int (-7))).Evaluates 0 ⟨.fresh, ""⟩
      (.ok (.int (-7)), ⟨Heap.fresh.put 0 "x" (.int (-7)), ""⟩) := ⟨2, rfl⟩
  have hdivisor : ∀ n, (Expr.binary .add (.var "x") (.int n)).Evaluates 0
      ⟨Heap.fresh.put 0 "x" (.int (-7)), ""⟩
      (.ok (.int (-7 + n)), ⟨Heap.fresh.put 0 "x" (.int (-7)), ""⟩) := fun n => ⟨2, rfl⟩
  obtain ⟨hdivides, -⟩ := divMod?_truncates (-7) 2
  obtain ⟨q, m, hqm, -, -, -, -, hends⟩ := hdivides (by decide)
  cases (show some (-3, -1) = some (q, m) from hqm)
  obtain ⟨hdivide, hmod⟩ := hends _ _ _ _ _ _ hdividend (hdivisor 9)
  obtain ⟨-, hfails⟩ := divMod?_truncates (-7) 0
  have hzero := hfails .mod _ _ _ _ _ _ (.inr rfl) hdividend (hdivisor 7)
  exact ⟨_, rfl, (hdivide _).2 rfl, (hmod _).2 rfl, (hzero _ _).2 ⟨rfl, rfl, rfl⟩⟩

end Featherweight
