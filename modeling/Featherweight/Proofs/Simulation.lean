import Featherweight.Eval.Fuel
import Featherweight.Proofs.OpenFrame
import Mathlib.Data.List.Forall2

/-! Two runs side by side. A simulation relates states, programs, values and failures of one run
to those of another; what it relates may grow with every step, so all is indexed by worlds. If
the basic actions respect the relations, then so does evaluation: with the same fuel both runs
come to related results, or neither comes to one. -/
namespace Featherweight

/-! ## Nodes and values of one form -/

/-- Two nodes of one kind, with the same operator, whose literals and parts correspond. -/
inductive Expr.Alike (part : Expr → Expr → Prop) (value : Value → Value → Prop) :
    Expr → Expr → Prop
  | literal {u v} : value u v → Alike part value (.literal u) (.literal v)
  | var (x y) : Alike part value (.var x) (.var y)
  | print {e d} : part e d → Alike part value (.print e) (.print d)
  | binary (op) {l r l' r'} : part l l' → part r r' →
      Alike part value (.binary op l r) (.binary op l' r')
  | cond {c t e c' t' e'} : part c c' → part t t' → part e e' →
      Alike part value (.cond c t e) (.cond c' t' e')
  | loop {c b c' b'} : part c c' → part b b' → Alike part value (.loop c b) (.loop c' b')
  | seq {a b a' b'} : part a a' → part b b' → Alike part value (.seq a b) (.seq a' b')
  | declare (x y) {e d} : part e d → Alike part value (.declare x e) (.declare y d)
  | assign (x y) {e d} : part e d → Alike part value (.assign x e) (.assign y d)
  | function (ps qs b d) : Alike part value (.function ps b) (.function qs d)
  | call {f g es ds} : part f g → List.Forall₂ part es ds →
      Alike part value (.call f es) (.call g ds)

/-- Two values that are equal, or closures with as many parameters. -/
inductive Value.Alike : Value → Value → Prop
  | int (n) : Alike (.int n) (.int n)
  | bool (b) : Alike (.bool b) (.bool b)
  | undefined : Alike .undefined .undefined
  | closure {ps qs} (b d i j) : ps.length = qs.length → Alike (.closure ps b i) (.closure qs d j)

theorem Value.Alike.refl (v : Value) : v.Alike v := by
  cases v <;> constructor
  rfl

/-- Operators cannot tell values apart that are alike. -/
theorem Value.Alike.apply_eq {u u' v v'} (hu : Value.Alike u u') (hv : Value.Alike v v')
    (op : Operator) : op.apply u v = op.apply u' v' := by
  cases hu <;> cases hv <;> rfl

theorem Operator.kind_of_apply {op : Operator} {u v w : Value} (h : op.apply u v = .ok w) :
    w.kind ≠ .closure := by
  cases u <;> cases v <;> simp only [apply, reduceCtorEq] at h
  cases op <;> simp only [compute] at h <;> (try split at h) <;> cases h <;> simp [Value.kind]

/-- Two lists of which one holds the images of the other, member by member. -/
theorem forall₂_image {α β : Type} {f : α → β} {p : α → Prop} {us : List α} {vs : List β}
    (h : List.Forall₂ (fun u v => v = f u ∧ p u) us vs) : vs = us.map f ∧ ∀ u ∈ us, p u := by
  induction h with
  | nil => simp
  | cons hv _ ih =>
    obtain ⟨rfl, hu⟩ := hv
    obtain ⟨rfl, hus⟩ := ih
    exact ⟨rfl, List.forall_mem_cons.2 ⟨hu, hus⟩⟩

theorem Expr.exists_evaluates_iff {e : Expr} {i : Nat} {s : State} :
    (∃ o, e.Evaluates i s o) ↔ ∃ fuel, (e.eval fuel i s).isSome := by
  simp only [Evaluates, Option.isSome_iff_exists]
  exact exists_comm

/-! ## Simulations -/

/-- Relations between two runs. A later world knows more about the two heaps. -/
structure Simulation where
  World : Type
  Later : World → World → Prop
  States : World → State → State → Prop
  /-- Programs together with the scopes that they are evaluated in. -/
  Programs : World → Nat → Expr → Nat → Expr → Prop
  Values : World → Value → Value → Prop
  Failures : World → Failure → Failure → Prop

namespace Simulation

/-- How two actions end: both out of fuel, both in answers, or both in failures. -/
inductive Outcomes (R : Simulation) {α : Type} (w : R.World) (A : R.World → α → α → Prop) :
    Option (Except Failure α × State) → Option (Except Failure α × State) → Prop
  | outOfFuel : Outcomes R w A none none
  | answer {w' a b s t} : R.Later w w' → R.States w' s t → A w' a b →
      Outcomes R w A (some (.ok a, s)) (some (.ok b, t))
  | failure {w' f g s t} : R.Later w w' → R.States w' s t → R.Failures w' f g →
      Outcomes R w A (some (.error f, s)) (some (.error g, t))

/-- From related states of any later world, two actions end alike. -/
def Acts (R : Simulation) {α : Type} (w : R.World) (A : R.World → α → α → Prop)
    (m n : Action α) : Prop :=
  ∀ w', R.Later w w' → ∀ s t, R.States w' s t → R.Outcomes w' A (m s) (n t)

/-- An answer that carries no information. -/
def Done (R : Simulation) (_ : R.World) (_ _ : Unit) : Prop := True

/-- What a simulation must respect: related nodes are alike and fail alike, related values are
alike, and the basic actions keep everything related. -/
structure Sound (R : Simulation) : Prop where
  refl : ∀ w, R.Later w w
  trans : ∀ {w w' w''}, R.Later w w' → R.Later w' w'' → R.Later w w''
  programs_later : ∀ {w w' i e j d}, R.Later w w' → R.Programs w i e j d → R.Programs w' i e j d
  values_later : ∀ {w w' u v}, R.Later w w' → R.Values w u v → R.Values w' u v
  nodes : ∀ {w i e j d}, R.Programs w i e j d →
    e.Alike (fun e d => R.Programs w i e j d) (R.Values w) d
  fail : ∀ {w i e j d}, R.Programs w i e j d → ∀ cause,
    R.Failures w (.error cause (some e)) (.error cause (some d))
  values : ∀ {w u v}, R.Values w u v → u.Alike v
  plain : ∀ w {v}, v.kind ≠ .closure → R.Values w v v
  function : ∀ {w i ps b j qs d}, R.Programs w i (.function ps b) j (.function qs d) →
    R.Values w (.closure ps b i) (.closure qs d j)
  resolve : ∀ {w i x j y s t}, R.Programs w i (.var x) j (.var y) → R.States w s t →
    R.Values w (s.heap.resolve i x) (t.heap.resolve j y)
  printLine : ∀ {w u v s t}, R.Values w u v → R.States w s t →
    R.Outcomes w R.Done (Action.printLine u s) (Action.printLine v t)
  declare : ∀ {w i x e j y d u v s t}, R.Programs w i (.declare x e) j (.declare y d) →
    R.Values w u v → R.States w s t →
    R.Outcomes w R.Done (Action.declare i x u (some (.declare x e)) s)
      (Action.declare j y v (some (.declare y d)) t)
  assign : ∀ {w i x e j y d u v s t}, R.Programs w i (.assign x e) j (.assign y d) →
    R.Values w u v → R.States w s t →
    R.Outcomes w R.Done (Action.assign i x u s) (Action.assign j y v t)
  openFrame : ∀ {w ps b i qs d j us vs s t},
    R.Values w (.closure ps b i) (.closure qs d j) → List.Forall₂ (R.Values w) us vs →
    us.length = ps.length → R.States w s t →
    R.Outcomes w (fun w k l => R.Programs w k b l d) (Action.openFrame i (ps.zip us) s)
      (Action.openFrame j (qs.zip vs) t)

/-! ## Actions -/

theorem Outcomes.isSome_eq {R : Simulation} {α : Type} {w : R.World} {A : R.World → α → α → Prop}
    {o o' : Option (Except Failure α × State)} (h : R.Outcomes w A o o') :
    o.isSome = o'.isSome := by
  cases h <;> rfl

theorem acts_outOfFuel {R : Simulation} {α : Type} {w : R.World} {A : R.World → α → α → Prop} :
    R.Acts w A Action.outOfFuel Action.outOfFuel :=
  fun _ _ _ _ _ => .outOfFuel

section
variable {R : Simulation} (hR : R.Sound) {w : R.World} {α β : Type}
  {A : R.World → α → α → Prop} {B : R.World → β → β → Prop}
include hR

theorem Sound.outcomes_later {w' : R.World} (hw : R.Later w w')
    {o o' : Option (Except Failure α × State)} (h : R.Outcomes w' A o o') :
    R.Outcomes w A o o' := by
  cases h with
  | outOfFuel => exact .outOfFuel
  | answer hw' hs ha => exact .answer (hR.trans hw hw') hs ha
  | failure hw' hs hf => exact .failure (hR.trans hw hw') hs hf

theorem Sound.acts_later {w' : R.World} (hw : R.Later w w') {m n : Action α}
    (h : R.Acts w A m n) : R.Acts w' A m n :=
  fun w'' hw' => h w'' (hR.trans hw hw')

theorem Sound.acts_pure {a b : α} (h : ∀ w', R.Later w w' → A w' a b) :
    R.Acts w A (pure a) (pure b) :=
  fun w' hw _ _ hs => .answer (hR.refl w') hs (h w' hw)

theorem Sound.acts_value {u v : Value} (h : R.Values w u v) :
    R.Acts w R.Values (pure u) (pure v) :=
  hR.acts_pure fun _ hw => hR.values_later hw h

theorem Sound.acts_fail {i e j d} (h : R.Programs w i e j d) (cause : Cause) :
    R.Acts w A (Action.fail cause (some e)) (Action.fail cause (some d)) :=
  fun w' hw _ _ hs => .failure (hR.refl w') hs (hR.fail (hR.programs_later hw h) cause)

theorem Sound.acts_bind {m n : Action α} {f g : α → Action β} (hm : R.Acts w A m n)
    (hf : ∀ w', R.Later w w' → ∀ a b, A w' a b → R.Acts w' B (f a) (g b)) :
    R.Acts w B (m >>= f) (n >>= g) := by
  intro w' hw s t hs
  rw [Action.bind_apply, Action.bind_apply]
  have h := hm w' hw s t hs
  generalize m s = o, n t = o' at h ⊢
  cases h with
  | outOfFuel => exact .outOfFuel
  | @answer w'' a b s' t' hw' hs' ha =>
    refine hR.outcomes_later hw' ?_
    exact hf w'' (hR.trans hw hw') a b ha w'' (hR.refl w'') s' t' hs'
  | failure hw' hs' hfail => exact .failure hw' hs' hfail

theorem Sound.acts_mapM {f g : Expr → Action Value} {es ds : List Expr}
    (h : List.Forall₂ (fun e d => R.Acts w R.Values (f e) (g d)) es ds) :
    R.Acts w (fun w => List.Forall₂ (R.Values w)) (es.mapM f) (ds.mapM g) := by
  induction h with
  | nil =>
    rw [List.mapM_nil, List.mapM_nil]
    exact hR.acts_pure fun _ _ => .nil
  | cons he _ ih =>
    rw [List.mapM_cons, List.mapM_cons]
    refine hR.acts_bind he fun w' hw u v hv => ?_
    refine hR.acts_bind (hR.acts_later hw ih) fun w'' hw' us vs hvs => ?_
    refine hR.acts_pure fun w''' hww => ?_
    exact (List.Forall₂.cons (hR.values_later hw' hv) hvs).imp fun _ _ => hR.values_later hww

theorem Sound.acts_rounds {c c' b b' : Action Value} {i e j d}
    (hc : R.Acts w R.Values c c') (hb : R.Acts w R.Values b b') (hn : R.Programs w i e j d)
    (fuel : Nat) : R.Acts w R.Values (Action.rounds c b e fuel) (Action.rounds c' b' d fuel) := by
  -- The fuel counts the rounds, and both sides go through the same number of them.
  induction fuel with
  | zero => exact acts_outOfFuel
  | succ fuel ih =>
    refine hR.acts_bind hb fun w' hw v v' hv => ?_
    refine hR.acts_bind (hR.acts_later hw hc) fun w'' hw' u u' hu => ?_
    have hww := hR.trans hw hw'
    cases hR.values hu with
    | bool b =>
      cases b with
      | true => exact hR.acts_later hww ih
      | false => exact hR.acts_value (hR.values_later hw' hv)
    | _ => exact hR.acts_fail (hR.programs_later hww hn) _

theorem Sound.acts_loop {c c' b b' : Action Value} {i e j d}
    (hc : R.Acts w R.Values c c') (hb : R.Acts w R.Values b b') (hn : R.Programs w i e j d)
    (fuel : Nat) : R.Acts w R.Values (Action.loop c b e fuel) (Action.loop c' b' d fuel) := by
  refine hR.acts_bind hc fun w' hw u u' hu => ?_
  have undefined := hR.acts_value (hR.plain w' (v := .undefined) (by simp [Value.kind]))
  cases hR.values hu with
  | bool b =>
    cases b with
    | true =>
      have hn := hR.programs_later hw hn
      exact hR.acts_rounds (hR.acts_later hw hc) (hR.acts_later hw hb) hn fuel
    | false => exact undefined
  | _ => exact undefined

/-! ## Evaluation -/

/-- Two evaluators of subprograms that act alike on related programs. -/
def Evaluators (R : Simulation) (eval eval' : Nat → Expr → Action Value) : Prop :=
  ∀ {w i e j d}, R.Programs w i e j d → R.Acts w R.Values (eval i e) (eval' j d)

theorem Sound.acts_enter {eval eval' : Nat → Expr → Action Value} (he : R.Evaluators eval eval')
    {ps b i qs d j us vs} (hv : R.Values w (.closure ps b i) (.closure qs d j))
    (hvs : List.Forall₂ (R.Values w) us vs) (hl : us.length = ps.length) :
    R.Acts w R.Values (Action.enter eval ps b i us) (Action.enter eval' qs d j vs) := by
  rw [Action.enter_eq, Action.enter_eq]
  refine hR.acts_bind (A := fun w k l => R.Programs w k b l d) ?_ fun w' _ k l hk => he hk
  intro w' hw s t hs
  have hvs' := hvs.imp fun _ _ => hR.values_later hw
  exact hR.openFrame (hR.values_later hw hv) hvs' hl hs

theorem Sound.acts_call {eval eval' : Nat → Expr → Action Value} (he : R.Evaluators eval eval')
    {i f es j g ds u v} (hn : R.Programs w i (.call f es) j (.call g ds))
    (hv : R.Values w u v) :
    R.Acts w R.Values (Action.call eval i (.call f es) es u)
      (Action.call eval' j (.call g ds) ds v) := by
  cases hR.values hv with
  | @closure ps qs b d k l hl =>
    cases hR.nodes hn with
    | call _ hargs =>
      refine hR.acts_bind (hR.acts_mapM (hargs.imp fun _ _ => he)) fun w' hw us vs hvs => ?_
      -- Equally many arguments and parameters: both calls pass the check of the arity, or neither.
      have hlen := hvs.length_eq
      by_cases hps : us.length = ps.length
      · have hqs : vs.length = qs.length := by omega
        simp only [Action.apply, hps, hqs, if_true]
        exact hR.acts_enter he (hR.values_later hw hv) hvs hps
      · simp only [hps, if_false, ← hlen, ← hl]
        exact hR.acts_fail (hR.programs_later hw hn) _
  | _ => exact hR.acts_fail hn _

/-- Evaluation respects a simulation that the basic actions respect. -/
theorem Sound.eval (fuel : Nat) : R.Evaluators (Expr.eval fuel) (Expr.eval fuel) := by
  -- Not on the program: the body of a called closure is no part of the program that calls it.
  induction fuel with
  | zero => exact fun _ => acts_outOfFuel
  | succ fuel ih =>
    intro w i e j d h
    cases hR.nodes h with
    | literal hv => exact hR.acts_value hv
    | var x y =>
      intro w' hw s t hs
      exact .answer (hR.refl w') hs (hR.resolve (hR.programs_later hw h) hs)
    | print he =>
      refine hR.acts_bind (ih he) fun w' hw u v hv => ?_
      refine hR.acts_bind (A := R.Done) ?_ fun w'' hw' _ _ _ =>
        hR.acts_value (hR.values_later hw' hv)
      exact fun w'' hw' s t hs => hR.printLine (hR.values_later hw' hv) hs
    | binary op hl hr =>
      refine hR.acts_bind (ih hl) fun w' hw u u' hu => ?_
      refine hR.acts_bind (hR.acts_later hw (ih hr)) fun w'' hw' v v' hv => ?_
      have happly := (hR.values hu).apply_eq (hR.values hv) op
      cases hop : op.apply u v with
      | ok x =>
        simp only [← happly, hop]
        exact hR.acts_value (hR.plain w'' (Operator.kind_of_apply hop))
      | error cause =>
        simp only [← happly, hop]
        exact hR.acts_fail (hR.programs_later (hR.trans hw hw') h) cause
    | cond hc ht he =>
      refine hR.acts_bind (ih hc) fun w' hw u u' hu => ?_
      cases hR.values hu with
      | bool b =>
        cases b with
        | true => exact hR.acts_later hw (ih ht)
        | false => exact hR.acts_later hw (ih he)
      | _ => exact hR.acts_fail (hR.programs_later hw h) _
    | loop hc hb => exact hR.acts_loop (ih hc) (ih hb) h fuel
    | seq ha hb => exact hR.acts_bind (ih ha) fun w' hw _ _ _ => hR.acts_later hw (ih hb)
    | declare x y he =>
      refine hR.acts_bind (ih he) fun w' hw u v hv => ?_
      refine hR.acts_bind (A := R.Done) ?_ fun w'' _ _ _ _ =>
        hR.acts_value (hR.plain w'' (by simp [Value.kind]))
      exact fun w'' hw' s t hs => hR.declare (hR.programs_later (hR.trans hw hw') h)
        (hR.values_later hw' hv) hs
    | assign x y he =>
      refine hR.acts_bind (ih he) fun w' hw u v hv => ?_
      refine hR.acts_bind (A := R.Done) ?_ fun w'' hw' _ _ _ =>
        hR.acts_value (hR.values_later hw' hv)
      exact fun w'' hw' s t hs => hR.assign (hR.programs_later (hR.trans hw hw') h)
        (hR.values_later hw' hv) hs
    | function ps qs b d => exact hR.acts_value (hR.function h)
    | call hf _ =>
      exact hR.acts_bind (ih hf) fun w' hw u v hv => hR.acts_call ih (hR.programs_later hw h) hv

/-! ## Results -/

/-- Two results that are related values, or related failures. -/
inductive Results (R : Simulation) (w : R.World) :
    Except Failure Value → Except Failure Value → Prop
  | answer {u v} : R.Values w u v → Results R w (.ok u) (.ok v)
  | failure {f g} : R.Failures w f g → Results R w (.error f) (.error g)

/-- Related programs in related states both come to a result or both do not, and the results and
the states that they leave are related. -/
theorem Sound.evaluates {i e j d s t} (he : R.Programs w i e j d) (hs : R.States w s t) :
    ((∃ o, e.Evaluates i s o) ↔ ∃ o, d.Evaluates j t o) ∧
    ∀ r s' r' t', e.Evaluates i s (r, s') → d.Evaluates j t (r', t') →
      ∃ w', R.Later w w' ∧ R.States w' s' t' ∧ R.Results w' r r' := by
  have hout : ∀ fuel, R.Outcomes w R.Values (e.eval fuel i s) (d.eval fuel j t) :=
    fun fuel => hR.eval fuel he w (hR.refl w) s t hs
  constructor
  · rw [Expr.exists_evaluates_iff, Expr.exists_evaluates_iff]
    exact exists_congr fun fuel => by rw [(hout fuel).isSome_eq]
  · intro r s' r' t' h h'
    obtain ⟨fuel, h⟩ := h
    have ho := hout fuel
    rw [h] at ho
    generalize hd : d.eval fuel j t = o at ho
    cases ho with
    | @answer w' _ _ _ _ hw hst hv =>
      cases Expr.Evaluates.unique ⟨fuel, hd⟩ h'
      exact ⟨w', hw, hst, .answer hv⟩
    | @failure w' _ _ _ _ hw hst hf =>
      cases Expr.Evaluates.unique ⟨fuel, hd⟩ h'
      exact ⟨w', hw, hst, .failure hf⟩

end

end Simulation

end Featherweight
