import Featherweight.Proofs.Event

/-! Diagnostic flags. They decide whether a run dumps its tree first, and what reports of errors
look like. Two sessions that differ in nothing else give the same results, step after step, if the
trees of all programs can be written. -/
namespace Featherweight

namespace Session

/-- Two sessions that differ in diagnostic flags only, and in how the kinds of errors are set off:
all flags of the reporter are diagnostic, and those of the session but the one that forbids
evaluation. -/
structure Peers (s s' : Session) : Prop where
  heap : s'.heap = s.heap
  scope : s'.globalScope = s.globalScope
  noInterpret : s'.flags.noInterpret = s.flags.noInterpret
  pending : s'.reporter.pending = s.reporter.pending

/-- The same event, or one that sets diagnostic flags otherwise. -/
inductive Event.Peers : Event → Event → Prop
  | same (e) : Peers e e
  | flags {F G : DebugFlags} : G.noInterpret = F.noInterpret →
      Peers (.does (.setFlags F)) (.does (.setFlags G))
  | reporterFlags (F G) : Peers (.does (.setReporterFlags F)) (.does (.setReporterFlags G))

/-- The trees of all programs that an event runs can be written. -/
def Event.Writable (e : Event) : Prop :=
  ∀ step p, e = .does step → step.program? = some p → p.isWritable = true

/-- The dump that a run starts its output with. -/
def dumpBlock (flags : DebugFlags) (p : Expr) : String :=
  if flags.dumpAst then Dump.render "AST" [p.render] else ""

theorem dump_of_isWritable (flags : DebugFlags) {p : Expr} (hp : p.isWritable = true) :
    dump flags p = ⟨dumpBlock flags p, true⟩ := by
  rw [dump, dumpBlock, Expr.text?, if_pos hp]
  split <;> rfl

/-- The dump that the output of a step starts with. Only a step that runs a program has one. -/
def stepDump (s : Session) (step : Step) : String :=
  (step.program?.map (dumpBlock s.flags)).getD ""

/-- Two turns between which nothing differs but the dump and what is written of errors. -/
structure Turn.Agree (t t' : Turn) : Prop where
  outcome : t'.reply.outcome = t.reply.outcome
  stdout : ∃ text, t.reply.stdout = t.before.stepDump t.step ++ text ∧
    t'.reply.stdout = t'.before.stepDump t'.step ++ text
  heap : t'.after.heap = t.after.heap
  globals : t'.after.globals = t.after.globals
  pending : t'.after.reporter.pending = t.after.reporter.pending

/-- Two ends of steps that differ in diagnostic flags, in what is written of errors, and in what
comes first in the output: `d` and `d'`. -/
structure Agree (d d' : String) (r r' : Reply × Session) : Prop where
  session : Peers r.2 r'.2
  outcome : r'.1.outcome = r.1.outcome
  stdout : ∃ text, r.1.stdout = d ++ text ∧ r'.1.stdout = d' ++ text

theorem Agree.turn {s s' : Session} {step step' : Step} {r r' : Reply × Session}
    (h : Agree (s.stepDump step) (s'.stepDump step') r r') :
    Turn.Agree ⟨s, step, r.1, r.2⟩ ⟨s', step', r'.1, r'.2⟩ where
  outcome := h.outcome
  stdout := h.stdout
  heap := h.session.heap
  globals := by
    show r'.2.globals = r.2.globals
    rw [globals, globals, h.session.heap, h.session.scope]
  pending := h.session.pending

theorem peers_start (paint paint' : String → String) (heap : Heap) {F G : DebugFlags}
    (h : G.noInterpret = F.noInterpret) : Peers (start paint heap F) (start paint' heap G) :=
  ⟨rfl, rfl, h, rfl⟩

section
variable {s s' : Session} (hs : Peers s s')
include hs

theorem Peers.after (heap : Heap) (pending : Bool) :
    Peers (s.after heap pending) (s'.after heap pending) :=
  ⟨rfl, hs.scope, hs.noInterpret, rfl⟩

/-- The same result concludes both runs. -/
theorem Peers.conclude (heap : Heap) (pending : Bool) (d d' out : String)
    (result : Except Failure Value) :
    Agree d d' ((s.after heap pending).conclude (d ++ out) result)
      ((s'.after heap pending).conclude (d' ++ out) result) := by
  rcases result with (⟨cause, node⟩ | _) | v
  · rw [conclude_error, conclude_error]
    exact ⟨hs.after heap _, rfl, out, rfl, rfl⟩
  · exact ⟨hs.after heap _, rfl, out, rfl, rfl⟩
  · rw [conclude_value, conclude_value]
    exact ⟨hs.after heap _, rfl, out, rfl, rfl⟩

/-- Both runs evaluate the program from the same state, or neither does. -/
theorem Peers.run (fuel : Nat) {p : Expr} (hp : p.isWritable = true) :
    Option.Rel (Agree (dumpBlock s.flags p) (dumpBlock s'.flags p)) (s.run fuel p)
      (s'.run fuel p) := by
  rw [run_eq, run_eq, dump_of_isWritable _ hp, dump_of_isWritable _ hp, hs.noInterpret, hs.scope,
    hs.heap, hs.pending]
  simp only [Bool.not_true, Bool.false_eq_true, if_false]
  split
  · have hstop : Peers s.informed s'.informed := ⟨hs.heap, hs.scope, hs.noInterpret, hs.pending⟩
    exact .some ⟨hstop, rfl, "", by simp, by simp⟩
  · cases p.eval fuel s.globalScope ⟨s.heap, ""⟩ with
    | none => exact .none
    | some r => exact .some (hs.conclude r.2.heap s.reporter.pending _ _ r.2.stdout r.1)

theorem Peers.step (fuel : Nat) {step : Step}
    (hw : ∀ p, step.program? = some p → p.isWritable = true) :
    Option.Rel (Agree (s.stepDump step) (s'.stepDump step)) (s.step fuel step)
      (s'.step fuel step) := by
  cases hp : step.program? with
  | some p =>
    rw [step_program hp, step_program hp, stepDump, stepDump, hp]
    exact hs.run fuel (hw p hp)
  | none =>
    rw [stepDump, stepDump, hp]
    cases step with
    | run p => cases hp
    | sample name =>
      have hname : Sample.find? name = none := Option.map_eq_none_iff.1 hp
      simp only [Session.step, hname]
      exact .some ⟨hs, rfl, "", rfl, rfl⟩
    | reset =>
      have hreset : Peers s.reset s'.reset :=
        ⟨by rw [reset, reset, hs.heap], by rw [reset, reset, hs.heap], hs.noInterpret, hs.pending⟩
      exact .some ⟨hreset, rfl, "", rfl, rfl⟩
    | setFlags F => exact .some ⟨⟨hs.heap, hs.scope, rfl, hs.pending⟩, rfl, "", rfl, rfl⟩
    | setReporterFlags F =>
      exact .some ⟨⟨hs.heap, hs.scope, hs.noInterpret, hs.pending⟩, rfl, "", rfl, rfl⟩
    | report d =>
      rw [step_report, step_report]
      exact .some ⟨⟨hs.heap, hs.scope, hs.noInterpret, rfl⟩, rfl, "", rfl, rfl⟩
    | checkpoint =>
      rw [Session.step, Session.step, checkpoint_eq, checkpoint_eq, hs.pending]
      exact .some ⟨⟨hs.heap, hs.scope, hs.noInterpret, rfl⟩, rfl, "", rfl, rfl⟩

/-- Diagnostic flags make no difference to an event, be it that it sets them. -/
theorem Peers.take (fuel : Nat) {e e' : Event} (he : e.Peers e') (hw : e.Writable) :
    Option.Rel (fun r r' => Peers r.2 r'.2 ∧ Option.Rel Turn.Agree r.1 r'.1)
      (s.take fuel e) (s'.take fuel e') := by
  cases he with
  | same =>
    cases e with
    | does step =>
      have hstep := hs.step fuel (hw step · rfl)
      rw [Session.take, Session.take]
      generalize s.step fuel step = o, s'.step fuel step = o' at hstep ⊢
      cases hstep with
      | none => exact .none
      | some h => exact .some ⟨h.session, .some h.turn⟩
    | makes scope => exact .some ⟨⟨by rw [hs.heap], hs.scope, hs.noInterpret, hs.pending⟩, .none⟩
  | @flags F G h =>
    have hagree : Agree (s.stepDump (.setFlags F)) (s'.stepDump (.setFlags G))
        (⟨.done, "", ""⟩, { s with flags := F }) (⟨.done, "", ""⟩, { s' with flags := G }) :=
      ⟨⟨hs.heap, hs.scope, h, hs.pending⟩, rfl, "", rfl, rfl⟩
    exact .some ⟨hagree.session, .some hagree.turn⟩
  | reporterFlags F G =>
    have hagree : Agree (s.stepDump (.setReporterFlags F)) (s'.stepDump (.setReporterFlags G))
        (⟨.done, "", ""⟩, { s with reporter := { s.reporter with flags := F } })
        (⟨.done, "", ""⟩, { s' with reporter := { s'.reporter with flags := G } }) :=
      ⟨⟨hs.heap, hs.scope, hs.noInterpret, hs.pending⟩, rfl, "", rfl, rfl⟩
    exact .some ⟨hagree.session, .some hagree.turn⟩

theorem Peers.turns (fuel : Nat) {es es' : List Event} (hes : List.Forall₂ Event.Peers es es')
    (hw : ∀ e ∈ es, e.Writable) :
    Option.Rel (fun r r' => Peers r.2 r'.2 ∧ List.Forall₂ Turn.Agree r.1 r'.1)
      (s.turns fuel es) (s'.turns fuel es') := by
  induction hes generalizing s s' with
  | nil => exact .some ⟨hs, .nil⟩
  | @cons e e' es es' he _ ih =>
    have htake := hs.take fuel he (hw e (List.mem_cons_self ..))
    rw [Session.turns, Session.turns]
    generalize s.take fuel e = o, s'.take fuel e' = o' at htake ⊢
    cases htake with
    | none => exact .none
    | @some r r' h =>
      obtain ⟨turn, t⟩ := r
      obtain ⟨turn', t'⟩ := r'
      obtain ⟨ht, hturn⟩ := h
      have hrest := ih ht fun e he => hw e (List.mem_cons_of_mem _ he)
      simp only [Option.bind_some]
      generalize t.turns fuel es = o, t'.turns fuel es' = o' at hrest ⊢
      cases hrest with
      | none => exact .none
      | some h =>
        refine .some ⟨h.1, ?_⟩
        cases hturn with
        | none => exact h.2
        | some hagree => exact .cons hagree h.2

end

/-- Diagnostic flags never change what programs mean. Two sessions start with flags that agree on
whether programs are evaluated, and with any two ways to set off the kinds of errors. The same
happens to both, but that flags may be set otherwise: those of the sessions so that they agree on
whether programs are evaluated, those of the reporters at will. If the trees of all programs can be
written, then each turn ends in the same way in both, leaves the same scopes and the same global
bindings, and an error pending in both or neither; and its output is the same after the dump, which
is there if the flags of that session ask for it. -/
theorem turns_agree (paint paint' : String → String) (heap : Heap) {F G : DebugFlags}
    (hflags : G.noInterpret = F.noInterpret) (fuel : Nat) {es es' : List Event}
    (hes : List.Forall₂ Event.Peers es es') (hw : ∀ e ∈ es, e.Writable) :
    Option.Rel (fun r r' => List.Forall₂ Turn.Agree r.1 r'.1)
      ((start paint heap F).turns fuel es) ((start paint' heap G).turns fuel es') := by
  have hturns := (peers_start paint paint' heap hflags).turns fuel hes hw
  generalize (start paint heap F).turns fuel es = o, (start paint' heap G).turns fuel es' = o'
    at hturns ⊢
  cases hturns with
  | none => exact .none
  | some h => exact .some h.2

/-- A run that prints, a change of flags, a report, and a checkpoint. -/
def printEvents (F : DebugFlags) : List Event :=
  [.does (.run (.print (.literal (.bool true)))), .does (.setFlags F),
    .does (.report ⟨.runtime, "", none⟩), .does .checkpoint]

theorem printEvents_agree :
    ∃ r r', (start Text.boldRed .empty ⟨true, false, false, false⟩).turns 3
        (printEvents .none) = some r ∧
      (start id .empty ⟨false, false, true, true⟩).turns 3
        (printEvents ⟨true, false, false, true⟩) = some r' ∧
      List.Forall₂ Turn.Agree r.1 r'.1 := by
  have hevents : List.Forall₂ Event.Peers (printEvents .none)
      (printEvents ⟨true, false, false, true⟩) :=
    .cons (.same _) (.cons (.flags rfl) (.cons (.same _) (.cons (.same _) .nil)))
  have hwritable : ∀ e ∈ printEvents .none, e.Writable := by
    intro e he step p hstep hp
    subst hstep
    simp only [printEvents, List.mem_cons, Event.does.injEq, List.not_mem_nil, or_false] at he
    rcases he with rfl | rfl | rfl | rfl
    · cases hp
      rfl
    all_goals cases hp
  have h := turns_agree Text.boldRed id .empty (F := ⟨true, false, false, false⟩)
    (G := ⟨false, false, true, true⟩) rfl 3 hevents hwritable
  obtain ⟨r, hr⟩ : ∃ r, (start Text.boldRed .empty ⟨true, false, false, false⟩).turns 3
    (printEvents .none) = some r := ⟨_, rfl⟩
  obtain ⟨r', hr'⟩ : ∃ r', (start id .empty ⟨false, false, true, true⟩).turns 3
    (printEvents ⟨true, false, false, true⟩) = some r' := ⟨_, rfl⟩
  rw [hr, hr'] at h
  cases h with
  | some h => exact ⟨r, r', hr, hr', h⟩

end Session

end Featherweight
