import Featherweight.Proofs.Event
import Featherweight.Proofs.Relocation

/-! Resets. The scopes that were made before a reset are out of reach after it, and the numbers of
those made since do not matter: the session answers every further step as a new one does. -/
namespace Featherweight

theorem Sample.closureFree {name : String} {sample : Sample}
    (h : Sample.find? name = some sample) : sample.program.ClosureFree := by
  have hall : ∀ s ∈ Sample.all, s.program.ClosureFree := by decide
  exact hall sample (List.mem_of_find?_eq_some h)

/-! ## Steps and events with other numbers -/

/-- The step with other numbers for the scopes captured in its program. -/
def Step.renumber (f : Nat → Nat) : Step → Step
  | .run p => .run (p.renumber f)
  | .report d => .report { d with node := d.node.map (Expr.renumber f) }
  | step => step

/-- Samples hold no closures, so they stay as they are. -/
theorem Step.program?_renumber (f : Nat → Nat) (step : Step) :
    (step.renumber f).program? = step.program?.map (Expr.renumber f) := by
  cases step with
  | sample name =>
    show (Sample.find? name).map Sample.program = ((Sample.find? name).map Sample.program).map _
    rw [Option.map_map]
    refine Option.map_congr fun sample hs => ?_
    exact (Expr.renumber_of_closureFree (Sample.closureFree hs) f).symm
  | _ => rfl

/-- The event with other numbers for the scopes that it refers to. -/
def Session.Event.renumber (f : Nat → Nat) : Session.Event → Session.Event
  | .does step => .does (step.renumber f)
  | .makes scope => .makes (scope.renumber f)

theorem Diagnostic.isWritable_renumber (f : Nat → Nat) (d : Diagnostic) :
    isWritable { d with node := d.node.map (Expr.renumber f) } = d.isWritable := by
  unfold isWritable
  cases d.node <;> simp [Expr.isWritable_renumber]

/-- A report does not show the numbers of scopes. -/
theorem Reporter.render_renumber (f : Nat → Nat) (paint : String → String) (flags : DebugFlags)
    (d : Diagnostic) (raised : Bool) :
    render paint flags { d with node := d.node.map (Expr.renumber f) } raised =
      render paint flags d raised := by
  unfold render
  cases d.node with
  | none => rfl
  | some e =>
    simp only [Option.map_some, Expr.text?_renumber]
    rfl

/-! ## Answers -/

/-- The outcome with other numbers for the scopes captured in it. -/
def Outcome.renumber (f : Nat → Nat) : Outcome → Outcome
  | .value v => .value (v.renumber f)
  | o => o

/-- What can be seen of a step: how it ends, what it writes, and after it, whether an error is
pending, and the global bindings. -/
structure Answer where
  outcome : Outcome
  stdout : String
  stderr : String
  pending : Bool
  globals : Bindings

/-- The answer with other numbers for the scopes captured in it. No text of it shows them. -/
def Answer.renumber (f : Nat → Nat) (a : Answer) : Answer :=
  { a with outcome := a.outcome.renumber f, globals := a.globals.renumber f }

namespace Session

def Turn.answer (t : Turn) : Answer :=
  ⟨t.reply.outcome, t.reply.stdout, t.reply.stderr, t.after.reporter.pending, t.after.globals⟩

/-- What is seen of a session as events happen to it. -/
def answers (fuel : Nat) (s : Session) (es : List Event) : Option (List Answer) :=
  (s.turns fuel es).map fun (turns, _) => turns.map Turn.answer

theorem answers_cons (fuel : Nat) (s : Session) (e : Event) (es : List Event) :
    s.answers fuel (e :: es) = (s.take fuel e).bind fun (turn, t) =>
      (t.answers fuel es).map fun rest => (turn.map Turn.answer).toList ++ rest := by
  rw [answers, turns]
  cases s.take fuel e with
  | none => rfl
  | some r =>
    obtain ⟨turn, t⟩ := r
    simp only [answers, Option.bind_some, Option.map_map]
    refine Option.map_congr fun rest _ => ?_
    cases turn <;> rfl

/-! ## Sessions abreast -/

/-- Two sessions whose heaps are abreast, with corresponding global scopes, and equal otherwise. -/
structure Abreast (f : Nat → Nat) (h₀ : Heap) (old : Set Nat) (h₀' : Heap) (old' : Set Nat)
    (s s' : Session) : Prop where
  heap : s.heap.Abreast f h₀ old s'.heap h₀' old'
  scope : s.globalScope ∈ s.heap.region h₀.size old
  scope_eq : s'.globalScope = Heap.pairing f h₀ h₀' s.globalScope
  flags : s'.flags = s.flags
  reporter : s'.reporter = s.reporter

/-- Corresponding replies, with sessions that are abreast. -/
structure Concur (f : Nat → Nat) (h₀ : Heap) (old : Set Nat) (h₀' : Heap) (old' : Set Nat)
    (r r' : Reply × Session) : Prop where
  session : Abreast f h₀ old h₀' old' r.2 r'.2
  outcome : r'.1.outcome = r.1.outcome.renumber (Heap.pairing f h₀ h₀')
  stdout : r'.1.stdout = r.1.stdout
  stderr : r'.1.stderr = r.1.stderr

section
variable {f : Nat → Nat} {h₀ h₀' : Heap} {old old' : Set Nat} {s s' : Session}

theorem Concur.answer {r r' : Reply × Session} (h : Concur f h₀ old h₀' old' r r')
    (step step' : Step) :
    Turn.answer ⟨s', step', r'.1, r'.2⟩ =
      (Turn.answer ⟨s, step, r.1, r.2⟩).renumber (Heap.pairing f h₀ h₀') := by
  have hglobals : r'.2.globals = r.2.globals.renumber (Heap.pairing f h₀ h₀') := by
    rw [globals, globals, h.session.scope_eq, h.session.heap.regions.bindings h.session.scope]
  simp only [Turn.answer, Answer.renumber, h.outcome, h.stdout, h.stderr, h.session.reporter,
    hglobals]

variable (ha : Abreast f h₀ old h₀' old' s s')
include ha

theorem Abreast.withReporter (r : Reporter) :
    Abreast f h₀ old h₀' old' { s with reporter := r } { s' with reporter := r } :=
  ⟨ha.heap, ha.scope, ha.scope_eq, ha.flags, rfl⟩

theorem Abreast.checkpoint (o : Outcome) (out err : String) :
    Concur f h₀ old h₀' old' (s.checkpoint o out err)
      (s'.checkpoint (o.renumber (Heap.pairing f h₀ h₀')) out err) := by
  rw [checkpoint_eq, checkpoint_eq, ha.reporter]
  refine ⟨ha.withReporter _, ?_, rfl, rfl⟩
  cases s.reporter.pending <;> rfl

/-- Corresponding results conclude two runs in the same way. -/
theorem Abreast.conclude (out : String) (r : Result) :
    Concur f h₀ old h₀' old' (s.conclude out r)
      (s'.conclude out (r.renumber (Heap.pairing f h₀ h₀'))) := by
  rcases r with (⟨cause, node⟩ | _) | v
  · have hwritten := fun paint flags =>
      Reporter.render_renumber (Heap.pairing f h₀ h₀') paint flags (.ofCause cause node) true
    have hwritable : (node.map (Expr.renumber (Heap.pairing f h₀ h₀'))).all Expr.isWritable =
        node.all Expr.isWritable :=
      Diagnostic.isWritable_renumber (Heap.pairing f h₀ h₀') (.ofCause cause node)
    simp only [Result.renumber, Failure.renumber, conclude_failed, ha.reporter, hwritable]
    refine ⟨ha.withReporter _, ?_, rfl, congrArg Written.text (hwritten _ _)⟩
    cases node.all Expr.isWritable <;> rfl
  · exact ⟨ha, rfl, rfl, rfl⟩
  · exact ha.checkpoint (.value v) _ _

theorem Abreast.after {heap heap' : Heap} (hheap : heap.Abreast f h₀ old heap' h₀' old')
    (g : s.heap.Grows heap) (pending : Bool) :
    Abreast f h₀ old h₀' old' (s.after heap pending) (s'.after heap' pending) :=
  ⟨hheap, g.region_subset ha.scope, ha.scope_eq, ha.flags,
    by simp only [Session.after, ha.flags, ha.reporter]⟩

theorem Abreast.informed : Abreast f h₀ old h₀' old' s.informed s'.informed :=
  ⟨ha.heap, ha.scope, ha.scope_eq, ha.flags, by simp only [Session.informed, ha.flags, ha.reporter]⟩

/-- Both evaluations take the same fuel, and so both runs come to an end or neither. -/
theorem Abreast.run (fuel : Nat) {p : Expr}
    (hp : ∀ j ∈ p.captured, j ∈ s.heap.region h₀.size old) :
    Option.Rel (Concur f h₀ old h₀' old') (s.run fuel p)
      (s'.run fuel (p.renumber (Heap.pairing f h₀ h₀'))) := by
  have hdump : dump s'.flags (p.renumber (Heap.pairing f h₀ h₀')) = dump s.flags p := by
    rw [dump, dump, ha.flags, Expr.text?_renumber]
  rw [run_eq, run_eq, hdump, ha.flags, ha.reporter]
  split
  · exact .some ⟨ha.informed, rfl, rfl, rfl⟩
  split
  · exact .some ⟨ha.informed, rfl, rfl, rfl⟩
  let R := Simulation.relocation f ⟨h₀, ""⟩ old ⟨h₀', ""⟩ old'
  have hprogram : R.Programs s.heap s.globalScope p s'.globalScope
      (p.renumber (Heap.pairing f h₀ h₀')) :=
    ⟨ha.scope_eq, rfl, List.forall_mem_cons.2 ⟨ha.scope, hp⟩⟩
  have hout := Simulation.sound_relocation.eval fuel hprogram s.heap (.refl _) ⟨s.heap, ""⟩
    ⟨s'.heap, ""⟩ ⟨rfl, ha.heap, "", rfl, rfl⟩
  generalize p.eval fuel s.globalScope ⟨s.heap, ""⟩ = o,
    (p.renumber (Heap.pairing f h₀ h₀')).eval fuel s'.globalScope ⟨s'.heap, ""⟩ = o' at hout ⊢
  cases hout with
  | outOfFuel => exact .none
  | answer hgrows hstates hv =>
    obtain ⟨rfl, hheap, text, hs, hs'⟩ := hstates
    obtain ⟨rfl, -⟩ := hv
    simp only [Option.map_some, hs, hs']
    exact .some ((ha.after hheap hgrows _).conclude _ (.ok _))
  | failure hgrows hstates he =>
    obtain ⟨rfl, hheap, text, hs, hs'⟩ := hstates
    obtain ⟨rfl, -⟩ := he
    simp only [Option.map_some, hs, hs']
    exact .some ((ha.after hheap hgrows _).conclude _ (.error _))

/-- Whatever is asked of both sessions, they stay abreast. -/
theorem Abreast.step (fuel : Nat) {step : Step}
    (hstep : ∀ j ∈ (Event.does step).captured, j ∈ s.heap.region h₀.size old) :
    Option.Rel (Concur f h₀ old h₀' old') (s.step fuel step)
      (s'.step fuel (step.renumber (Heap.pairing f h₀ h₀'))) := by
  cases hp : step.program? with
  | some p =>
    have hp' : (step.renumber (Heap.pairing f h₀ h₀')).program? =
        some (p.renumber (Heap.pairing f h₀ h₀')) := by
      rw [Step.program?_renumber, hp, Option.map_some]
    rw [step_program hp, step_program hp']
    exact ha.run fuel fun j hj => hstep j (Event.captured_does hp ▸ hj)
  | none =>
    cases step with
    | run p => cases hp
    | sample name =>
      have hname : Sample.find? name = none := Option.map_eq_none_iff.1 hp
      simp only [Step.renumber, Session.step, hname]
      exact .some ⟨ha, rfl, rfl, rfl⟩
    | reset =>
      refine .some ⟨⟨?_, ?_, ha.heap.size.symm, ha.flags, ha.reporter⟩, rfl, rfl, rfl⟩
      · exact ha.heap.push (s := ⟨none, []⟩) (by simp) (by simp) (by simp [Bindings.names])
      · show s.heap.size ∈ (s.heap.push ⟨none, []⟩).region h₀.size old
        rw [Heap.region_push ha.heap.left.size]
        exact .inl rfl
    | setFlags flags =>
      exact .some ⟨⟨ha.heap, ha.scope, ha.scope_eq, rfl, ha.reporter⟩, rfl, rfl, rfl⟩
    | setReporterFlags flags =>
      refine .some ⟨⟨ha.heap, ha.scope, ha.scope_eq, ha.flags, ?_⟩, rfl, rfl, rfl⟩
      simp only [ha.reporter]
    | report d =>
      have hwritten := fun paint flags =>
        Reporter.render_renumber (Heap.pairing f h₀ h₀') paint flags d false
      simp only [Step.renumber, step_report, ha.reporter, Diagnostic.isWritable_renumber]
      refine .some ⟨ha.withReporter _, ?_, rfl, congrArg Written.text (hwritten _ _)⟩
      cases d.isWritable <;> rfl
    | checkpoint => exact .some (ha.checkpoint .done "" "")

theorem Abreast.take (fuel : Nat) {e : Event}
    (he : ∀ j ∈ e.captured, j ∈ s.heap.region h₀.size old)
    (hd : ∀ scope, e = .makes scope → scope.bindings.names.Nodup) :
    Option.Rel (fun r r' => Abreast f h₀ old h₀' old' r.2 r'.2 ∧ r'.1.map Turn.answer =
        (r.1.map Turn.answer).map (Answer.renumber (Heap.pairing f h₀ h₀')))
      (s.take fuel e) (s'.take fuel (e.renumber (Heap.pairing f h₀ h₀'))) := by
  cases e with
  | does step =>
    have hstep := ha.step fuel he
    rw [Event.renumber, Session.take, Session.take]
    generalize s.step fuel step = o,
      s'.step fuel (step.renumber (Heap.pairing f h₀ h₀')) = o' at hstep ⊢
    cases hstep with
    | none => exact .none
    | some h => exact .some ⟨h.session, congrArg some (h.answer ..)⟩
  | makes scope =>
    have hheap := ha.heap.push (fun j hj => he j (Event.enclosing_mem_captured hj))
      (fun e hmem j hj => he j (Event.mem_captured_makes hmem hj)) (hd scope rfl)
    refine .some ⟨⟨hheap, ?_, ha.scope_eq, ha.flags, ha.reporter⟩, rfl⟩
    exact (Heap.Grows.push ..).region_subset ha.scope

/-- Sessions that are abreast answer alike for as long as only scopes of their regions are referred
to. -/
theorem Abreast.answers {base : Nat} (hold : ∀ j, base ≤ j → j < h₀.size → j ∈ old) (fuel : Nat)
    {es : List Event} (hes : s.Fits fuel base es) :
    s'.answers fuel (es.map (Event.renumber (Heap.pairing f h₀ h₀'))) =
      (s.answers fuel es).map (List.map (Answer.renumber (Heap.pairing f h₀ h₀'))) := by
  induction es generalizing s s' with
  | nil => rfl
  | cons e es ih =>
    obtain ⟨he, hrest⟩ := hes
    have htake := ha.take fuel (fun j hj => ⟨(he.captured j hj).2, hold j (he.captured j hj).1⟩)
      he.distinct
    rw [List.map_cons, answers_cons, answers_cons]
    generalize ho : s.take fuel e = o,
      s'.take fuel (e.renumber (Heap.pairing f h₀ h₀')) = o' at htake ⊢
    cases htake with
    | none => rfl
    | @some r r' h =>
      obtain ⟨hnext, hanswer⟩ := h
      simp only [Option.bind_some, ih hnext (hrest _ _ ho), hanswer, Option.map_map]
      refine Option.map_congr fun rest _ => ?_
      cases r.1 <;> simp

end

end Session

/-! ## New global scopes -/

namespace Heap

section
variable (h h' : Heap)

theorem scope?_newScope_self : (h.newScope none).scope? h.size = some ⟨none, []⟩ := by
  rw [scope?_newScope, if_pos rfl]

/-- There is nothing around a new global scope, and nothing in it. -/
theorem closed_newScope : (h.newScope none).Closed {h.size} := by
  refine ⟨fun i hi j hj => ?_, fun i hi e he j hj => ?_⟩
  · rw [Set.mem_singleton_iff.1 hi, enclosing?, scope?_newScope_self] at hj
    cases hj
  · rw [Set.mem_singleton_iff.1 hi, bindings, scope?_newScope_self] at he
    cases he

theorem region_newScope :
    (h.newScope none).region (h.newScope none).size {h.size} = {h.size} := by
  ext j
  simp only [mem_region, size_newScope, Set.mem_singleton_iff]
  omega

/-- Two new global scopes correspond, whatever else there is in the heaps. -/
theorem corresponds_newScope {f : Nat → Nat} (hf : f h.size = h'.size) :
    (h.newScope none).Corresponds f {h.size} (h'.newScope none) {h'.size} where
  bijOn := by
    rw [← hf]
    exact Set.bijOn_singleton.2 rfl
  scopes i hi := by
    rw [Set.mem_singleton_iff.1 hi, hf, scope?_newScope_self, scope?_newScope_self]
    rfl

end

theorem WellFormed.abreast_newScope {h h' : Heap} (hw : (h.newScope none).WellFormed)
    (hw' : (h'.newScope none).WellFormed) {f : Nat → Nat} (hf : f h.size = h'.size) :
    (h.newScope none).Abreast f (h.newScope none) {h.size} (h'.newScope none) (h'.newScope none)
      {h'.size} :=
  .start (hw.confined h.closed_newScope) (hw'.confined h'.closed_newScope) h.region_newScope
    h'.region_newScope (corresponds_newScope h h' hf)

/-- With nothing but a new global scope below them, later scopes are numbered on from it. -/
theorem pairing_newScope (h : Heap) :
    pairing (· - h.size) (h.newScope none) fresh = (· - h.size) := by
  funext i
  simp only [pairing, size_newScope, fresh, size_empty]
  split <;> omega

end Heap

namespace Session

/-! ## After a reset -/

/-- A session starts over the scopes of any heap, comes to a state in which no error is pending and
the reporter follows the flags `F` of the session, and is reset. However it came to it, it answers
all further events as a new session with the flags `F` does, as long as they refer to no scope that
was made before the reset. The new session numbers the scopes from its own global one on. -/
theorem reset_answers {paint : String → String} {heap : Heap} {G F : DebugFlags} {fuel fuel' : Nat}
    {past events : List Event} {turns : List Turn} {s : Session} (hheap : heap.WellFormed)
    (hpast : (start paint heap G).Fits fuel 0 past)
    (hs : (start paint heap G).turns fuel past = some (turns, s))
    (hpending : s.reset.reporter.pending = false) (hflags : s.reset.flags = F)
    (hreporter : s.reset.reporter.flags = F)
    (hevents : s.reset.Fits fuel' s.reset.globalScope events) :
    (new paint F).answers fuel' (events.map (.renumber (· - s.reset.globalScope))) =
      (s.reset.answers fuel' events).map (List.map (.renumber (· - s.reset.globalScope))) := by
  have hwell : s.WellFormed := (wellFormed_start paint hheap G).turns hpast hs
  let f : Nat → Nat := (· - s.heap.size)
  have hpairing : Heap.pairing f s.reset.heap .fresh = f := s.heap.pairing_newScope
  have hstart : Abreast f s.reset.heap {s.heap.size} .fresh {0} s.reset (new paint F) := by
    refine ⟨?_, ?_, ?_, hflags.symm, ?_⟩
    · exact hwell.heap.newScope.abreast_newScope Heap.wellFormed_fresh (Nat.sub_self _)
    · rw [show s.reset.heap = s.heap.newScope none from rfl, Heap.region_newScope]
      rfl
    · rw [hpairing]
      exact (Nat.sub_self s.heap.size).symm
    · have hpaint : s.reset.reporter.paint = paint := turns_paint hs
      show (⟨paint, F, false⟩ : Reporter) = s.reset.reporter
      rw [← hpaint, ← hreporter, ← hpending]
  -- Of the scopes that are there at the reset, the events may refer to the new global one.
  have hold : ∀ j, s.heap.size ≤ j → j < s.reset.heap.size → j ∈ ({s.heap.size} : Set Nat) := by
    intro j hle hlt
    rw [show s.reset.heap.size = s.heap.size + 1 from Heap.size_newScope ..] at hlt
    exact Nat.le_antisymm (Nat.le_of_lt_succ hlt) hle
  have hanswers := hstart.answers hold fuel' hevents
  rw [hpairing] at hanswers
  exact hanswers

/-- An error is reported, the flags change, a run binds a closure and ends in the exit for errors,
and the host makes a scope. -/
def reportPast : List Event :=
  [.does (.report ⟨.runtime, "", none⟩), .does (.setFlags .none),
    .does (.run (.declare "f" (.function [] (.var "n")))), .makes ⟨some 1, []⟩]

/-- What that leaves: the closure is bound in a global scope that is out of reach after a reset. -/
def reportLeft : Session :=
  { heap := ⟨#[⟨none, []⟩, ⟨none, [("f", .closure [] (.var "n") 1)]⟩, ⟨some 1, []⟩]⟩
    globalScope := 1
    flags := .none
    reporter := ⟨Text.boldRed, .none, false⟩ }

/-- A function that adds to the number in the scope that it captures. -/
def adder (captured : Nat) : Value :=
  .closure ["x"] (.binary .add (.var "n") (.var "x")) captured

/-- The host makes a scope, and closures over it are bound and called, with a reset between. -/
def adderEvents : List Event :=
  [.makes ⟨some 3, [("n", .int 40)]⟩, .does (.run (.declare "add" (.literal (adder 4)))),
    .does .reset, .does (.run (.call (.literal (adder 4)) [.int 2]))]

/-- What is seen of the declaration, the reset and the call. -/
def adderAnswers (captured : Nat) : List Answer :=
  [⟨.value .undefined, "", "", false, [("add", adder captured)]⟩, ⟨.done, "", "", false, []⟩,
    ⟨.value (.int 42), "", "", false, []⟩]

/-- After the reset the closures are over scope 4, and in a new session over scope 1. -/
theorem adderEvents_after_reportPast :
    ∃ turns, (start Text.boldRed .fresh ⟨false, false, false, true⟩).turns 5 reportPast =
        some (turns, reportLeft) ∧
      reportLeft.reset.answers 5 adderEvents = some (adderAnswers 4) ∧
      (new Text.boldRed .none).answers 5 (adderEvents.map (.renumber (· - 3))) =
        some (adderAnswers 1) := by
  have hpast : (start Text.boldRed .fresh ⟨false, false, false, true⟩).Fits 5 0 reportPast := by
    refine ⟨⟨by decide, nofun⟩, ?_⟩
    rintro _ _ ⟨⟩
    refine ⟨⟨by decide, nofun⟩, ?_⟩
    rintro _ _ ⟨⟩
    refine ⟨⟨by decide, nofun⟩, ?_⟩
    rintro _ _ ⟨⟩
    refine ⟨⟨by decide, ?_⟩, fun _ _ _ => trivial⟩
    rintro _ ⟨⟩
    decide
  have hevents : reportLeft.reset.Fits 5 reportLeft.reset.globalScope adderEvents := by
    refine ⟨⟨by decide, ?_⟩, ?_⟩
    · rintro _ ⟨⟩
      decide
    rintro _ _ ⟨⟩
    refine ⟨⟨by decide, nofun⟩, ?_⟩
    rintro _ _ ⟨⟩
    refine ⟨⟨by decide, nofun⟩, ?_⟩
    rintro _ _ ⟨⟩
    exact ⟨⟨by decide, nofun⟩, fun _ _ _ => trivial⟩
  obtain ⟨turns, hs⟩ : ∃ turns, (start Text.boldRed .fresh ⟨false, false, false, true⟩).turns 5
      reportPast = some (turns, reportLeft) := ⟨_, rfl⟩
  have hanswers : reportLeft.reset.answers 5 adderEvents = some (adderAnswers 4) := rfl
  have hnew := reset_answers Heap.wellFormed_fresh hpast hs rfl rfl rfl hevents
  rw [hanswers] at hnew
  exact ⟨turns, hs, hanswers, hnew⟩

end Session

end Featherweight
