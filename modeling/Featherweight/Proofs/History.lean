import Featherweight.Proofs.Report
import Mathlib.Data.List.DropRight

/-! Histories of sessions. An error is pending from the step that hands it to the reporter up to the
next step that ends in the exit for errors. Only a checkpoint ends in that exit, be it a step of
its own or the end of a run, so steps that come to no checkpoint lose no error, and no error is
counted in two exits. -/
namespace Featherweight

/-- The program that a step runs, if it runs one. -/
def Step.program? : Step → Option Expr
  | .run p => some p
  | .sample name => (Sample.find? name).map Sample.program
  | _ => none

namespace Session

/-! ## Errors and checkpoints of a step -/

/-- A run of the program would come to its evaluation: the flags let it, and the tree that it may
have to dump can be written. -/
def Begins (s : Session) (p : Expr) : Prop :=
  (dump s.flags p).complete = true ∧ s.flags.noInterpret = false

/-- Evaluation of the program in the session comes to a result. -/
def Results (s : Session) (p : Expr) (result : Except Failure Value) : Prop :=
  s.Begins p ∧ ∃ t, p.Evaluates s.globalScope ⟨s.heap, ""⟩ (result, t)

/-- A step hands an error to the reporter: it reports one, or it runs a program whose evaluation
fails with one. -/
inductive HandsOver (s : Session) : Step → Prop
  | report (d) : HandsOver s (.report d)
  | run {step p cause node} : step.program? = some p → s.Results p (.error (.error cause node)) →
      HandsOver s step

/-- A step gets as far as a checkpoint: it is one, or it runs a program whose evaluation comes to a
value, or to an error that can be reported in full. -/
inductive GetsToCheckpoint (s : Session) : Step → Prop
  | checkpoint : GetsToCheckpoint s .checkpoint
  | value {step p v} : step.program? = some p → s.Results p (.ok v) → GetsToCheckpoint s step
  | error {step p cause node} : step.program? = some p →
      s.Results p (.error (.error cause node)) → node.all Expr.isWritable = true →
      GetsToCheckpoint s step

/-- An error is pending, or the step hands one over. -/
def Owes (s : Session) (step : Step) : Prop :=
  s.reporter.pending = true ∨ s.HandsOver step

/-- A step comes to an end, with a reply and the session that it leaves. -/
def Takes (s : Session) (step : Step) (r : Reply × Session) : Prop :=
  ∃ fuel, s.step fuel step = some r

theorem Results.unique {s : Session} {p : Expr} {result result' : Except Failure Value}
    (h : s.Results p result) (h' : s.Results p result') : result = result' := by
  obtain ⟨-, t, ht⟩ := h
  obtain ⟨-, t', ht'⟩ := h'
  exact (Prod.mk.inj (ht.unique ht')).1

theorem step_program {step : Step} {p : Expr} (hp : step.program? = some p) (fuel : Nat)
    (s : Session) : s.step fuel step = s.run fuel p := by
  cases step with
  | run q =>
    cases hp
    rfl
  | sample name =>
    obtain ⟨sample, hs, rfl⟩ := Option.map_eq_some_iff.1 hp
    simp [Session.step, hs]
  | _ => cases hp

theorem takes_program {s : Session} {step : Step} {p : Expr} (hp : step.program? = some p)
    {r : Reply × Session} : s.Takes step r ↔ s.Runs p r := by
  simp only [Takes, Runs, step_program hp]

/-- Of the steps that run no program, only a checkpoint gets to one. -/
theorem GetsToCheckpoint.eq_checkpoint {s : Session} {step : Step} (h : s.GetsToCheckpoint step)
    (hp : step.program? = none) : step = .checkpoint := by
  rcases h with _ | ⟨hq, -⟩ | ⟨hq, -⟩
  · rfl
  · cases hp.symm.trans hq
  · cases hp.symm.trans hq

/-- Of the steps that run no program, only a report hands an error over. -/
theorem HandsOver.eq_report {s : Session} {step : Step} (h : s.HandsOver step)
    (hp : step.program? = none) : ∃ d, step = .report d := by
  rcases h with d | ⟨hq, -⟩
  · exact ⟨d, rfl⟩
  · cases hp.symm.trans hq

/-! ## Accountable steps -/

/-- What a step does about errors: it ends in the exit for errors if it gets to a checkpoint and
there is an error by then, and without that exit the error stays. -/
structure Accountable (s : Session) (step : Step) (reply : Reply) (u : Session) : Prop where
  exit : reply.outcome = .exit 65 ↔ s.GetsToCheckpoint step ∧ s.Owes step
  pending : u.reporter.pending = true ↔ reply.outcome ≠ .exit 65 ∧ s.Owes step

/-- A step that neither gets to a checkpoint nor hands an error over, and leaves alone what is
pending. -/
theorem Accountable.of_idle {s u : Session} {step : Step} {reply : Reply}
    (hreply : reply.outcome ≠ .exit 65) (hcheck : ¬ s.GetsToCheckpoint step)
    (hhands : ¬ s.HandsOver step) (hu : u.reporter.pending = s.reporter.pending) :
    Accountable s step reply u := by
  refine ⟨⟨fun h => absurd h hreply, fun h => absurd h.1 hcheck⟩, ?_⟩
  simp [hreply, Owes, hhands, hu]

/-- A step that gets to a checkpoint settles all. -/
theorem Accountable.of_checkpoint {s u : Session} {step : Step} {reply : Reply}
    (hcheck : s.GetsToCheckpoint step) (hreply : reply.outcome = .exit 65 ↔ s.Owes step)
    (hu : u.reporter.pending = false) : Accountable s step reply u := by
  refine ⟨by simp [hcheck, hreply], ?_⟩
  simp [hu, hreply]

section
variable {s u : Session} {step : Step} {p : Expr} {reply : Reply} (hp : step.program? = some p)
include hp

theorem handsOver_program :
    s.HandsOver step ↔ ∃ cause node, s.Results p (.error (.error cause node)) := by
  constructor
  · rintro (d | ⟨hq, h⟩)
    · cases hp
    · cases hp.symm.trans hq
      exact ⟨_, _, h⟩
  · rintro ⟨cause, node, h⟩
    exact .run hp h

theorem getsToCheckpoint_program : s.GetsToCheckpoint step ↔
    (∃ v, s.Results p (.ok v)) ∨
      ∃ cause node, s.Results p (.error (.error cause node)) ∧ node.all Expr.isWritable = true := by
  constructor
  · rintro (_ | ⟨hq, h⟩ | ⟨hq, h, hw⟩)
    · cases hp
    · cases hp.symm.trans hq
      exact .inl ⟨_, h⟩
    · cases hp.symm.trans hq
      exact .inr ⟨_, _, h, hw⟩
  · rintro (⟨v, h⟩ | ⟨cause, node, h, hw⟩)
    · exact .value hp h
    · exact .error hp h hw

/-- A run that comes to neither a value nor an error is idle. -/
theorem Accountable.of_idle_run (hreply : reply.outcome ≠ .exit 65)
    (hall : ∀ result, s.Results p result → result = .error .digitLimit)
    (hu : u.reporter.pending = s.reporter.pending) : Accountable s step reply u := by
  refine .of_idle hreply ?_ ?_ hu
  · rw [getsToCheckpoint_program hp]
    rintro (⟨v, h⟩ | ⟨cause, node, h, -⟩) <;> cases hall _ h
  · rw [handsOver_program hp]
    rintro ⟨cause, node, h⟩
    cases hall _ h

/-- The end of a run whose evaluation comes to a result is accountable. -/
theorem Results.accountable {result : Except Failure Value} (h : s.Results p result) {heap : Heap}
    {out : String} (hr : (reply, u) = (s.after heap s.reporter.pending).conclude out result) :
    Accountable s step reply u := by
  cases result with
  | ok v =>
    rw [conclude_value] at hr
    cases hr
    have hhands : ¬ s.HandsOver step := by
      rw [handsOver_program hp]
      rintro ⟨cause, node, h'⟩
      cases h.unique h'
    refine .of_checkpoint (.value hp h) ?_ rfl
    cases hpending : s.reporter.pending <;> simp [Owes, hhands, hpending]
  | error f =>
    cases f with
    | digitLimit =>
      cases hr
      exact .of_idle_run hp (by simp) (fun result h' => h'.unique h) rfl
    | error cause node =>
      have howes : s.Owes step := .inr (.run hp h)
      rw [conclude_error] at hr
      cases hr
      cases hw : node.all Expr.isWritable with
      | true => exact .of_checkpoint (.error hp h hw) (by simp [howes]) rfl
      | false =>
        -- The report stops at the node, and with it the step.
        have hcheck : ¬ s.GetsToCheckpoint step := by
          rw [getsToCheckpoint_program hp]
          rintro (⟨v, h'⟩ | ⟨cause', node', h', hw'⟩)
          · cases h.unique h'
          · cases h.unique h'
            exact absurd hw' (by simp [hw])
        exact ⟨by simp [hcheck], by simp [howes, after]⟩

/-- A run is accountable, however it ends. -/
theorem Runs.accountable (h : s.Runs p (reply, u)) : Accountable s step reply u := by
  rcases runs_iff.1 h with ⟨hdump, hr⟩ | ⟨-, hno, hr⟩ | ⟨hdump, hno, result, t, he, hr⟩
  · cases hr
    exact .of_idle_run hp (by simp) (fun result h => absurd h.1.1 (by simp [hdump])) rfl
  · cases hr
    exact .of_idle_run hp (by simp) (fun result h => absurd h.1.2 (by simp [hno])) rfl
  · have hresult : s.Results p result := ⟨⟨hdump, hno⟩, t, he⟩
    exact hresult.accountable hp hr

end

/-- Every step is accountable. -/
theorem Takes.accountable {s u : Session} {step : Step} {reply : Reply}
    (h : s.Takes step (reply, u)) : Accountable s step reply u := by
  cases hp : step.program? with
  | some p => exact Runs.accountable hp ((takes_program hp).1 h)
  | none =>
    obtain ⟨fuel, h⟩ := h
    have hcheck (h : s.GetsToCheckpoint step) : step = .checkpoint := h.eq_checkpoint hp
    have hhands (h : s.HandsOver step) : ∃ d, step = .report d := h.eq_report hp
    cases step with
    | run p => cases hp
    | sample name =>
      have hs : Sample.find? name = none := Option.map_eq_none_iff.1 hp
      simp only [Session.step, hs, Option.some.injEq, Prod.mk.injEq] at h
      obtain ⟨rfl, rfl⟩ := h
      exact .of_idle (by simp) (fun h => nomatch hcheck h) (fun h => nomatch hhands h) rfl
    | reset | setFlags | setReporterFlags =>
      cases h
      exact .of_idle (by simp) (fun h => nomatch hcheck h) (fun h => nomatch hhands h) rfl
    | report d =>
      cases h
      have howes : s.Owes (.report d) := .inr (.report d)
      have hreply : (if (Reporter.render s.reporter.paint s.reporter.flags d false).complete then
          Outcome.done else .digitLimit) ≠ .exit 65 := by
        split <;> simp
      refine ⟨⟨fun h => absurd h hreply, fun h => nomatch hcheck h.1⟩, ?_⟩
      exact ⟨fun _ => ⟨hreply, howes⟩, fun _ => rfl⟩
    | checkpoint =>
      have howes : s.Owes .checkpoint ↔ s.reporter.pending = true :=
        or_iff_left fun h => nomatch hhands h
      cases hpending : s.reporter.pending <;>
        simp only [Session.step, Session.checkpoint, Reporter.checkpoint, hpending, if_true,
          Bool.false_eq_true, if_false, Option.some.injEq, Prod.mk.injEq] at h <;>
        obtain ⟨rfl, rfl⟩ := h
      · exact .of_checkpoint .checkpoint (by simp [howes, hpending]) hpending
      · exact .of_checkpoint .checkpoint (by simp [howes, hpending, Reporter.errorExit]) rfl

/-! ## Turns -/

/-- A step that comes to an end, between the session it starts from and the one it leaves. -/
structure Turn where
  before : Session
  step : Step
  reply : Reply
  after : Session

namespace Turn

/-- The turn ends in the exit for errors. -/
def exits (t : Turn) : Bool :=
  match t.reply.outcome with
  | .exit code => code == Reporter.errorExit
  | _ => false

theorem exits_iff (t : Turn) : t.exits = true ↔ t.reply.outcome = .exit 65 := by
  unfold exits
  cases t.reply.outcome <;> simp [Reporter.errorExit]

/-- The turn hands an error to the reporter. -/
def HandsOver (t : Turn) : Prop :=
  t.before.HandsOver t.step

/-- Turns that come to no checkpoint: a reset, a change of flags, a run without evaluation, and any
step that stops at an integer with too many digits. -/
inductive Quiet (t : Turn) : Prop
  | reset : t.step = .reset → Quiet t
  | flags (flags) : t.step = .setFlags flags → Quiet t
  | reporterFlags (flags) : t.step = .setReporterFlags flags → Quiet t
  | noInterpret {p} : t.step.program? = some p → t.before.flags.noInterpret = true → Quiet t
  | digitLimit : t.reply.outcome = .digitLimit → Quiet t

/-- A quiet turn does not end in the exit for errors. -/
theorem Quiet.not_exits {t : Turn} (h : t.Quiet)
    (ht : Accountable t.before t.step t.reply t.after) : t.reply.outcome ≠ .exit 65 := by
  intro hexit
  have hcheck : t.before.GetsToCheckpoint t.step := (ht.exit.1 hexit).1
  cases h with
  | reset h | flags _ h | reporterFlags _ h =>
    rw [h] at hcheck
    cases hcheck.eq_checkpoint rfl
  | noInterpret hp hno =>
    obtain ⟨result, hresult⟩ : ∃ result, t.before.Results _ result := by
      rcases (getsToCheckpoint_program hp).1 hcheck with ⟨v, h⟩ | ⟨cause, node, h, -⟩ <;>
        exact ⟨_, h⟩
    exact absurd hresult.1.2 (by simp [hno])
  | digitLimit h => cases h.symm.trans hexit

/-- The turns after the last one that ends in the exit for errors. -/
def sinceExit (turns : List Turn) : List Turn :=
  turns.rtakeWhile fun t => !t.exits

theorem sinceExit_concat (turns : List Turn) (t : Turn) :
    sinceExit (turns ++ [t]) = if t.exits then [] else sinceExit turns ++ [t] := by
  rw [sinceExit, List.rtakeWhile_concat]
  cases t.exits <;> rfl

end Turn

/-! ## Histories -/

/-- The turns that lead from one session to another, one after the other. -/
inductive History (s : Session) : List Turn → Session → Prop
  | start : History s [] s
  | next {turns t step reply u} : History s turns t → t.Takes step (reply, u) →
      History s (turns ++ [⟨t, step, reply, u⟩]) u

namespace History
variable {s t u : Session} {turns : List Turn}

/-- Each turn of a history goes on from the turns before it. -/
theorem turn {past rest : List Turn} {turn : Turn} (h : History s turns u)
    (hturns : turns = past ++ turn :: rest) :
    History s past turn.before ∧ turn.before.Takes turn.step (turn.reply, turn.after) := by
  induction h generalizing rest with
  | start => simp at hturns
  | next h ht ih =>
    -- Either the turn is the last one, or the history before the last one has it already.
    rcases List.eq_nil_or_concat' rest with rfl | ⟨rest, last, rfl⟩
    · obtain ⟨rfl, hlast⟩ := List.append_inj' hturns rfl
      cases hlast
      exact ⟨h, ht⟩
    · rw [← List.cons_append, ← List.append_assoc] at hturns
      exact ih (List.append_inj' hturns rfl).1

/-- Replies to steps come from a history of those steps. -/
theorem steps {fuel : Nat} {steps : List Step} {replies : List Reply} (h : History s turns t)
    (hsteps : t.steps fuel steps = some (replies, u)) :
    ∃ more, History s (turns ++ more) u ∧ more.map Turn.step = steps ∧
      more.map Turn.reply = replies := by
  -- Each step lengthens the history at its end, so `turns` and `t` move with the steps.
  induction steps generalizing turns t replies with
  | nil =>
    cases hsteps
    exact ⟨[], by simpa using h, rfl, rfl⟩
  | cons step rest ih =>
    obtain ⟨⟨reply, t'⟩, hstep, hrest⟩ := Option.bind_eq_some_iff.1 hsteps
    obtain ⟨⟨replies, u⟩, hrest, hcons⟩ := Option.map_eq_some_iff.1 hrest
    cases hcons
    obtain ⟨more, hmore, rfl, rfl⟩ := ih (h.next ⟨fuel, hstep⟩) hrest
    exact ⟨⟨t, step, reply, t'⟩ :: more, by simpa using hmore, rfl, rfl⟩

/-- An error is pending at the end of a history if and only if one was handed over since the last
exit for errors. -/
theorem pending_iff (h : History s turns u) (hs : s.reporter.pending = false) :
    u.reporter.pending = true ↔ ∃ t ∈ Turn.sinceExit turns, t.HandsOver := by
  induction h with
  | start => simp [Turn.sinceExit, hs]
  | @next turns t step reply u h ht ih =>
    -- After an exit nothing is pending and no turn is left; otherwise the last turn joins the rest.
    rw [ht.accountable.pending, Owes, ih, Turn.sinceExit_concat]
    have hexit : Turn.exits ⟨t, step, reply, u⟩ = true ↔ reply.outcome = .exit 65 :=
      Turn.exits_iff _
    cases hexits : Turn.exits ⟨t, step, reply, u⟩ with
    | true =>
      have hreply : reply.outcome = .exit 65 := hexit.1 hexits
      simp [hreply]
    | false =>
      have hreply : reply.outcome ≠ .exit 65 := by simpa [hexits] using hexit
      simp [hreply, Turn.HandsOver, or_and_right, exists_or]

end History

/-! ## Sessions -/

/-- Errors are neither lost nor counted twice. After each step of a session that starts with no
error, one is pending if and only if one was handed to the reporter since the last step that ended
in the exit for errors. A step ends in that exit if and only if it gets to a checkpoint while an
error is pending or handed over in the step itself. Resets, changes of flags, runs without
evaluation and steps that stop at an integer with too many digits let what is pending stay. -/
theorem steps_pending {paint : String → String} {heap : Heap} {flags : DebugFlags} {fuel : Nat}
    {steps : List Step} {replies : List Reply} {u : Session}
    (h : (start paint heap flags).steps fuel steps = some (replies, u)) :
    ∃ turns, History (start paint heap flags) turns u ∧ turns.map Turn.step = steps ∧
      turns.map Turn.reply = replies ∧ ∀ past turn rest, turns = past ++ turn :: rest →
        (turn.after.reporter.pending = true ↔
          ∃ t ∈ Turn.sinceExit (past ++ [turn]), t.HandsOver) ∧
        (turn.reply.outcome = .exit 65 ↔ turn.before.GetsToCheckpoint turn.step ∧
          (turn.before.reporter.pending = true ∨ turn.HandsOver)) ∧
        (turn.Quiet → turn.before.reporter.pending = true →
          turn.after.reporter.pending = true) := by
  obtain ⟨turns, hturns, hmap, hreplies⟩ := History.start.steps h
  refine ⟨turns, hturns, hmap, hreplies, fun past turn rest hpast => ?_⟩
  obtain ⟨hbefore, htakes⟩ := hturns.turn hpast
  have hturn := htakes.accountable
  refine ⟨(hbefore.next htakes).pending_iff rfl, hturn.exit, fun hquiet hpending => ?_⟩
  exact hturn.pending.2 ⟨hquiet.not_exits hturn, .inl hpending⟩

/-- A reported error outlasts a change of flags and the run that does nothing because of it, and
ends the session in the exit. -/
theorem report_run_checkpoint_pending :
    ∃ turns u, History (new Text.boldRed .none) turns u ∧
      turns.map Turn.step = [.report (.ofCause .divisionByZero none),
        .setFlags { DebugFlags.none with noInterpret := true }, .run (.int 1), .checkpoint] ∧
      turns.map Turn.reply = [⟨.done, "",
        "[\x1b[1m\x1b[31mFwjsArithmeticError\x1b[0m] Division by zero.\n"⟩, ⟨.done, "", ""⟩,
        ⟨.exit 0, "", ""⟩, ⟨.exit 65, "", ""⟩] ∧
      ∀ past turn rest, turns = past ++ turn :: rest → (turn.after.reporter.pending = true ↔
        ∃ t ∈ Turn.sinceExit (past ++ [turn]), t.HandsOver) := by
  have h : (new Text.boldRed .none).steps 1 [.report (.ofCause .divisionByZero none),
      .setFlags { DebugFlags.none with noInterpret := true }, .run (.int 1), .checkpoint] =
      some ([⟨.done, "",
        "[\x1b[1m\x1b[31mFwjsArithmeticError\x1b[0m] Division by zero.\n"⟩, ⟨.done, "", ""⟩,
        ⟨.exit 0, "", ""⟩, ⟨.exit 65, "", ""⟩], _) := rfl
  obtain ⟨turns, hturns, hsteps, hreplies, hall⟩ := steps_pending h
  exact ⟨turns, _, hturns, hsteps, hreplies, fun past turn rest hpast =>
    (hall past turn rest hpast).1⟩

end Session

end Featherweight
