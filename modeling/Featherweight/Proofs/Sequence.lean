import Featherweight.Proofs.Nodes
import Featherweight.Proofs.Report

/-! Programs in sequence. To run programs one after the other, up to the first that fails, is to run
them as one sequence: the replies, the output and the sessions that are left agree. Two things
carry this from evaluation to sessions: a run does not see the output of those before it, and a
program that comes to a value leaves nothing behind but the heap. -/
namespace Featherweight

/-! ## What was written before a run -/

namespace Simulation

/-- A run next to itself, where `out` and `out'` had been written before. -/
def resumption (out out' : String) : Simulation where
  World := Unit
  Later _ _ := True
  States _ s t := s.heap = t.heap ∧ ∃ text, s.stdout = out ++ text ∧ t.stdout = out' ++ text
  Programs _ i e j d := i = j ∧ e = d
  Values _ u v := u = v
  Failures _ f g := f = g

section
variable {out out' : String} {α : Type} {A : Unit → α → α → Prop} {s t : State}
  (hs : (resumption out out').States () s t)
include hs

theorem resumption_answer {a b : α} (hab : A () a b) :
    (resumption out out').Outcomes () A (some (.ok a, s)) (some (.ok b, t)) :=
  .answer trivial hs hab

theorem resumption_failure (f : Failure) :
    (resumption out out').Outcomes () A (some (.error f, s)) (some (.error f, t)) :=
  .failure trivial hs rfl

/-- The same change of both heaps. -/
theorem resumption_heap (h : Heap) :
    (resumption out out').States () { s with heap := h } { t with heap := h } :=
  ⟨rfl, hs.2⟩

/-- The same line behind both outputs. -/
theorem resumption_line (line : String) :
    (resumption out out').States () { s with stdout := s.stdout ++ line ++ "\n" }
      { t with stdout := t.stdout ++ line ++ "\n" } := by
  obtain ⟨hheap, text, hout, hout'⟩ := hs
  refine ⟨hheap, text ++ (line ++ "\n"), ?_, ?_⟩
  · simp [hout, String.append_assoc]
  · simp [hout', String.append_assoc]

end

theorem sound_resumption (out out' : String) : (resumption out out').Sound where
  refl _ := trivial
  trans _ _ := trivial
  programs_later _ h := h
  values_later _ h := h
  nodes := by
    intro w i e j d h
    obtain ⟨rfl, rfl⟩ := h
    exact .refl (fun _ _ => ⟨rfl, rfl⟩) fun _ _ => rfl
  fail := by
    intro w i e j d h cause
    obtain ⟨-, rfl⟩ := h
    rfl
  values := by
    intro w u v h
    rw [show u = v from h]
    exact .refl v
  plain _ _ _ := rfl
  function := by
    intro w i ps b j qs d h
    obtain ⟨rfl, he⟩ := h
    cases he
    rfl
  resolve := by
    intro w i x j y s t h hs
    obtain ⟨rfl, he⟩ := h
    cases he
    exact congrArg (Heap.resolve · i x) hs.1
  printLine := by
    intro w u v s t hv hs
    obtain rfl : u = v := hv
    unfold Action.printLine
    cases u.text? with
    | none => exact resumption_failure hs _
    | some line => exact resumption_answer (resumption_line hs line) trivial
  declare := by
    intro w i x e j y d u v s t h hv hs
    obtain ⟨rfl, he⟩ := h
    cases he
    obtain rfl : u = v := hv
    simp only [Action.declare, ← hs.1]
    split
    · exact resumption_failure hs _
    · exact resumption_answer (resumption_heap hs _) trivial
  assign := by
    intro w i x e j y d u v s t h hv hs
    obtain ⟨rfl, he⟩ := h
    cases he
    obtain rfl : u = v := hv
    simp only [Action.assign, ← hs.1]
    exact resumption_answer (resumption_heap hs _) trivial
  openFrame := by
    intro w ps b i qs d j us vs s t hc hvs _ hs
    cases hc
    obtain rfl : us = vs := List.forall₂_eq_eq_eq ▸ hvs
    rw [Action.openFrame_apply, Action.openFrame_apply, ← hs.1]
    have hframe := resumption_heap hs (s.heap.newFrame i (Bindings.declareAll [] (ps.zip us)).1)
    cases (Bindings.declareAll [] (ps.zip us)).2 with
    | none => exact resumption_answer hframe ⟨rfl, rfl⟩
    | some x => exact resumption_failure hframe _

end Simulation

namespace Expr

/-- What was written before a run has no influence on it, and stays in front of what it writes. -/
theorem evaluates_iff_from_empty {e : Expr} {i : Nat} {h : Heap} {out : String}
    {r : Except Failure Value} {t : State} :
    e.Evaluates i ⟨h, out⟩ (r, t) ↔
      ∃ text, t.stdout = out ++ text ∧ e.Evaluates i ⟨h, ""⟩ (r, ⟨t.heap, text⟩) := by
  obtain ⟨hboth, hend⟩ := (Simulation.sound_resumption out "").evaluates (w := ()) (i := i) (e := e)
    (s := ⟨h, out⟩) (t := ⟨h, ""⟩) ⟨rfl, rfl⟩ ⟨rfl, "", by simp, by simp⟩
  have related : ∀ {r t r' t'}, e.Evaluates i ⟨h, out⟩ (r, t) → e.Evaluates i ⟨h, ""⟩ (r', t') →
      r = r' ∧ t.heap = t'.heap ∧ t.stdout = out ++ t'.stdout := by
    intro r t r' t' he he'
    obtain ⟨w, -, ⟨hheap, text, hout, hout'⟩, hresults⟩ := hend r t r' t' he he'
    rw [String.empty_append] at hout'
    refine ⟨?_, hheap, by rw [hout, hout']⟩
    cases hresults with
    | answer hv => exact congrArg Except.ok hv
    | failure hf => exact congrArg Except.error hf
  constructor
  · intro he
    obtain ⟨⟨r', t'⟩, he'⟩ := hboth.1 ⟨_, he⟩
    obtain ⟨rfl, hheap, hout⟩ := related he he'
    exact ⟨t'.stdout, hout, hheap ▸ he'⟩
  · rintro ⟨text, hout, he'⟩
    obtain ⟨⟨r', t'⟩, he⟩ := hboth.2 ⟨_, he'⟩
    obtain ⟨rfl, hheap, hout'⟩ := related he he'
    have ht : t = t' := by
      obtain ⟨heap, stdout⟩ := t
      obtain ⟨heap', stdout'⟩ := t'
      simp_all
    exact ht ▸ he

/-! ## Sequences -/

/-- It does not matter how the parts of a sequence are bracketed. -/
theorem evaluates_sequence_append {p q : Expr} {ps qs : List Expr} {i : Nat} {s : State}
    {o : Except Failure Value × State} :
    (sequence p (ps ++ q :: qs)).Evaluates i s o ↔
      (Expr.seq (sequence p ps) (sequence q qs)).Evaluates i s o := by
  obtain ⟨r, t⟩ := o
  induction ps generalizing p s with
  | nil => exact Iff.rfl
  | cons p' ps ih =>
    rw [List.cons_append, sequence_cons, sequence_cons, evaluates_seq, evaluates_seq]
    simp only [ih, evaluates_seq]
    constructor
    · rintro (⟨f, rfl, hp⟩ | ⟨v, u, hp, ⟨f, rfl, hps⟩ | ⟨w, u', hps, hq⟩⟩)
      · exact .inl ⟨f, rfl, .inl ⟨f, rfl, hp⟩⟩
      · exact .inl ⟨f, rfl, .inr ⟨v, u, hp, hps⟩⟩
      · exact .inr ⟨w, u', .inr ⟨v, u, hp, hps⟩, hq⟩
    · rintro (⟨f, rfl, ⟨f', hf, hp⟩ | ⟨v, u, hp, hps⟩⟩ | ⟨w, u', ⟨f', hf, -⟩ | ⟨v, u, hp, hps⟩, hq⟩)
      · cases hf
        exact .inl ⟨f, rfl, hp⟩
      · exact .inr ⟨v, u, hp, .inl ⟨f, rfl, hps⟩⟩
      · cases hf
      · exact .inr ⟨v, u, hp, .inr ⟨w, u', hps, hq⟩⟩

end Expr

/-- The reply after others, whose output comes first. -/
def Reply.behind (reply : Reply) (stdout stderr : String) : Reply :=
  ⟨reply.outcome, stdout ++ reply.stdout, stderr ++ reply.stderr⟩

namespace Session

/-! ## Runs one after the other -/

/-- Programs run one after the other, up to the first that does not come to a value. The reply is
that of the last run, behind the output of those before it. -/
inductive RunsAll : Session → Expr → List Expr → Reply × Session → Prop
  | last {s p r} : s.Runs p r → RunsAll s p [] r
  | stop {s p q ps reply t} : s.Runs p (reply, t) → (∀ v, reply.outcome ≠ .value v) →
      RunsAll s p (q :: ps) (reply, t)
  | next {s p q ps v stdout stderr t reply u} : s.Runs p (⟨.value v, stdout, stderr⟩, t) →
      RunsAll t q ps (reply, u) → RunsAll s p (q :: ps) (reply.behind stdout stderr, u)

/-- What is written before the end of a run stays in front of its output. -/
theorem conclude_append (s : Session) (out out' : String) (result : Except Failure Value) :
    s.conclude (out ++ out') result =
      ((s.conclude out' result).1.behind out "", (s.conclude out' result).2) := by
  rcases result with (⟨cause, node⟩ | _) | v
  · simp [conclude_failed, Reply.behind]
  · simp [conclude, Reply.behind]
  · simp [conclude, checkpoint_eq, Reply.behind]

/-- A run that dumps no tree and evaluates ends as evaluation says. -/
theorem runs_iff_evaluates {s : Session} (hdump : s.flags.dumpAst = false)
    (hno : s.flags.noInterpret = false) (hpending : s.reporter.pending = false) {p : Expr}
    {r : Reply × Session} :
    s.Runs p r ↔ ∃ result t, p.Evaluates s.globalScope ⟨s.heap, ""⟩ (result, t) ∧
      r = (s.after t.heap false).conclude t.stdout result := by
  rw [runs_iff, hpending]
  simp [dump, hdump, hno]

/-- A run whose evaluation fails does not come to a value. -/
theorem conclude_error_ne_value (s : Session) (heap : Heap) (out : String) (f : Failure)
    (v : Value) : ((s.after heap false).conclude out (.error f)).1.outcome ≠ .value v := by
  cases f with
  | digitLimit => simp [conclude]
  | error cause node =>
    rw [conclude_error]
    cases node.all Expr.isWritable <;> simp

/-- The first of several programs fails, or it comes to a value and the others run then. -/
theorem runsAll_cons {s : Session} (hdump : s.flags.dumpAst = false)
    (hno : s.flags.noInterpret = false) (hpending : s.reporter.pending = false) {p q : Expr}
    {ps : List Expr} {r : Reply × Session} :
    s.RunsAll p (q :: ps) r ↔
      (∃ f t, p.Evaluates s.globalScope ⟨s.heap, ""⟩ (.error f, t) ∧
        r = (s.after t.heap false).conclude t.stdout (.error f)) ∨
      ∃ v t reply u, p.Evaluates s.globalScope ⟨s.heap, ""⟩ (.ok v, t) ∧
        (s.after t.heap false).RunsAll q ps (reply, u) ∧ r = (reply.behind t.stdout "", u) := by
  constructor
  · intro h
    cases h with
    | stop hp hvalue =>
      obtain ⟨result, t, he, hr⟩ := (runs_iff_evaluates hdump hno hpending).1 hp
      cases result with
      | ok v =>
        rw [conclude_value] at hr
        cases hr
        exact absurd rfl (hvalue v)
      | error f => exact .inl ⟨f, t, he, hr⟩
    | next hp hps =>
      obtain ⟨result, t, he, hr⟩ := (runs_iff_evaluates hdump hno hpending).1 hp
      cases result with
      | ok v =>
        rw [conclude_value] at hr
        cases hr
        exact .inr ⟨_, t, _, _, he, hps, rfl⟩
      | error f =>
        exact absurd (congrArg (·.1.outcome) hr).symm (s.conclude_error_ne_value _ _ f _)
  · rintro (⟨f, t, he, rfl⟩ | ⟨v, t, reply, u, he, hps, rfl⟩)
    · refine .stop ?_ (s.conclude_error_ne_value t.heap t.stdout f)
      exact (runs_iff_evaluates hdump hno hpending).2 ⟨_, t, he, rfl⟩
    · have hp : s.Runs p (⟨.value v, t.stdout, ""⟩, s.after t.heap false) := by
        refine (runs_iff_evaluates hdump hno hpending).2 ⟨_, t, he, ?_⟩
        rw [conclude_value]
        rfl
      exact .next hp hps

/-- The programs of a list run in turn as their sequence runs. -/
theorem runsAll_iff_runs {s : Session} (hdump : s.flags.dumpAst = false)
    (hno : s.flags.noInterpret = false) (hpending : s.reporter.pending = false) {p : Expr}
    {ps : List Expr} {r : Reply × Session} :
    s.RunsAll p ps r ↔ s.Runs (.sequence p ps) r := by
  -- On the programs that are left; the session is the one that those before them leave.
  induction ps generalizing s p r with
  | nil =>
    constructor
    · rintro ⟨h⟩
      exact h
    · exact .last
  | cons q ps ih =>
    have next (t : State) {reply u} := @ih (s.after t.heap false) hdump hno rfl q (reply, u)
    have run (t : State) {reply u} := @runs_iff_evaluates (s.after t.heap false) hdump hno rfl
      (.sequence q ps) (reply, u)
    rw [runsAll_cons hdump hno hpending, runs_iff_evaluates hdump hno hpending, Expr.sequence_cons]
    simp only [next, run]
    constructor
    · rintro (⟨f, t, hp, rfl⟩ | ⟨v, t, reply, u, hp, ⟨result, t', hps, hr⟩, rfl⟩)
      · exact ⟨_, t, Expr.evaluates_seq.2 (.inl ⟨f, rfl, hp⟩), rfl⟩
      · have hps : (Expr.sequence q ps).Evaluates s.globalScope t
            (result, ⟨t'.heap, t.stdout ++ t'.stdout⟩) :=
          Expr.evaluates_iff_from_empty.2 ⟨t'.stdout, rfl, hps⟩
        refine ⟨result, _, Expr.evaluates_seq.2 (.inr ⟨v, t, hp, hps⟩), ?_⟩
        rw [conclude_append]
        exact congrArg (fun o : Reply × Session => (o.1.behind t.stdout "", o.2)) hr
    · rintro ⟨result, t', he, rfl⟩
      rcases Expr.evaluates_seq.1 he with ⟨f, rfl, hp⟩ | ⟨v, t, hp, hps⟩
      · exact .inl ⟨f, t', hp, rfl⟩
      · obtain ⟨text, hout, hps⟩ := Expr.evaluates_iff_from_empty.1 hps
        refine .inr ⟨v, t, _, _, hp, ⟨result, _, hps, rfl⟩, ?_⟩
        rw [hout, conclude_append]
        rfl

end Session

/-- In a session that dumps no trees, evaluates, and has no error pending, programs run one after
the other, up to the first that fails, exactly as their sequence runs: with the same end, the same
output in all, and the same session left behind. So a sequence may be cut in two anywhere. -/
theorem Session.runsAll_iff_runs_sequence {s : Session} (hdump : s.flags.dumpAst = false)
    (hno : s.flags.noInterpret = false) (hpending : s.reporter.pending = false) (p : Expr)
    (ps : List Expr) :
    (∀ r, s.RunsAll p ps r ↔ s.Runs (.sequence p ps) r) ∧
    ∀ q qs,
      (∀ i t o, (Expr.sequence p (ps ++ q :: qs)).Evaluates i t o ↔
        (Expr.seq (.sequence p ps) (.sequence q qs)).Evaluates i t o) ∧
      ∀ r, s.Runs (.sequence p (ps ++ q :: qs)) r ↔
        s.Runs (.seq (.sequence p ps) (.sequence q qs)) r := by
  refine ⟨fun r => runsAll_iff_runs hdump hno hpending, fun q qs => ⟨fun i t o => ?_, fun r => ?_⟩⟩
  · exact Expr.evaluates_sequence_append
  · rw [runs_iff_evaluates hdump hno hpending, runs_iff_evaluates hdump hno hpending]
    simp only [Expr.evaluates_sequence_append]

/-- The third program fails when its function binds a name twice, and the fourth does not run. -/
theorem declarePrintCall_runsAll :
    ∃ u, (Session.new Text.boldRed .none).RunsAll (.declare "x" (.literal (.bool true)))
      [.print (.var "x"), .call (.function ["a", "a"] (.var "a")) [.var "x", .var "x"],
        .assign "x" (.literal .undefined)]
      (⟨.exit 65, "true\n", "[\x1b[1m\x1b[31mFwjsDuplicateDeclaration\x1b[0m] " ++
        "Variable 'a' is already declared in this scope.\n"⟩, u) ∧
      u.globals.find? "x" = some (.bool true) ∧ u.reporter.pending = false := by
  obtain ⟨hall, -⟩ := Session.runsAll_iff_runs_sequence (s := .new Text.boldRed .none) rfl rfl rfl
    (.declare "x" (.literal (.bool true)))
    [.print (.var "x"), .call (.function ["a", "a"] (.var "a")) [.var "x", .var "x"],
      .assign "x" (.literal .undefined)]
  exact ⟨_, (hall _).2 ⟨6, rfl⟩, rfl, rfl⟩

end Featherweight
