import Featherweight.Proofs.History

/-! Sessions in use. Whoever hosts a session takes steps with it, and may make scopes in between:
the closures that later programs hold as literals capture them. A session answers such events with
turns. As long as events refer to scopes that exist, the heap stays well formed. -/
namespace Featherweight

namespace Session

/-- What happens to a session. -/
inductive Event where
  | does (step : Step)
  /-- The host makes a scope. -/
  | makes (scope : Scope)

namespace Event

/-- The scopes that an event refers to: those captured in the program that it runs, or the one
around a new scope and those captured in its bindings. -/
def captured : Event → List Nat
  | .does step => (step.program?.map Expr.captured).getD []
  | .makes s => s.enclosing.toList ++ s.bindings.flatMap fun e => e.2.captured

/-- An event refers to scopes that exist, none of them older than `base`, and a new scope binds no
name twice. -/
structure Fits (h : Heap) (base : Nat) (e : Event) : Prop where
  captured : ∀ j ∈ e.captured, base ≤ j ∧ j < h.size
  distinct : ∀ s, e = .makes s → s.bindings.names.Nodup

theorem captured_does {step : Step} {p : Expr} (hp : step.program? = some p) :
    (Event.does step).captured = p.captured := by
  simp [captured, hp]

theorem enclosing_mem_captured {s : Scope} {j : Nat} (hj : s.enclosing = some j) :
    j ∈ (Event.makes s).captured := by
  simp [captured, hj]

theorem mem_captured_makes {s : Scope} {e : Name × Value} (he : e ∈ s.bindings) {j : Nat}
    (hj : j ∈ e.2.captured) : j ∈ (Event.makes s).captured :=
  List.mem_append_right _ (List.mem_flatMap.2 ⟨e, he, hj⟩)

end Event

/-- What comes of an event: a turn, if it is a step, and the session that is left. -/
def take (fuel : Nat) (s : Session) : Event → Option (Option Turn × Session)
  | .does step => (s.step fuel step).map fun (reply, u) => (some ⟨s, step, reply, u⟩, u)
  | .makes scope => some (none, { s with heap := s.heap.push scope })

/-- The turns that a session takes as several events happen, in order, and the session that is
left. -/
def turns (fuel : Nat) (s : Session) : List Event → Option (List Turn × Session)
  | [] => some ([], s)
  | e :: es =>
    (s.take fuel e).bind fun (turn, t) =>
      (t.turns fuel es).map fun (turns, u) => (turn.toList ++ turns, u)

/-- Each of several events fits the heap that it finds. -/
def Fits (fuel base : Nat) (s : Session) : List Event → Prop
  | [] => True
  | e :: es => e.Fits s.heap base ∧
    ∀ turn t, s.take fuel e = some (turn, t) → t.Fits fuel base es

/-- The heap is well formed, and the global scope is in it. -/
structure WellFormed (s : Session) : Prop where
  heap : s.heap.WellFormed
  scope : s.globalScope < s.heap.size

theorem wellFormed_start (paint : String → String) {heap : Heap} (hw : heap.WellFormed)
    (flags : DebugFlags) : (start paint heap flags).WellFormed := by
  refine ⟨hw.newScope, ?_⟩
  show heap.size < (heap.newScope none).size
  rw [Heap.size_newScope]
  exact Nat.lt_succ_self _

/-- The end of a run changes nothing but what is pending. -/
theorem conclude_snd (s : Session) (out : String) (result : Except Failure Value) :
    (s.conclude out result).2 =
      { s with reporter :=
        { s.reporter with pending := (s.conclude out result).2.reporter.pending } } := by
  rcases result with (⟨cause, node⟩ | _) | v
  · rw [conclude_failed]
  · rfl
  · rw [conclude, checkpoint_eq]

theorem run_paint {fuel : Nat} {s : Session} {p : Expr} {r : Reply × Session}
    (h : s.run fuel p = some r) : r.2.reporter.paint = s.reporter.paint := by
  rw [run_eq] at h
  split at h
  · cases h
    rfl
  split at h
  · cases h
    rfl
  · obtain ⟨⟨result, t⟩, -, rfl⟩ := Option.map_eq_some_iff.1 h
    show ((s.after t.heap s.reporter.pending).conclude _ result).2.reporter.paint = _
    rw [conclude_snd]
    rfl

theorem step_paint {fuel : Nat} {s : Session} {step : Step} {r : Reply × Session}
    (h : s.step fuel step = some r) : r.2.reporter.paint = s.reporter.paint := by
  cases hp : step.program? with
  | some p => exact run_paint (step_program hp fuel s ▸ h)
  | none =>
    cases step with
    | run p => cases hp
    | sample name =>
      have hname : Sample.find? name = none := Option.map_eq_none_iff.1 hp
      simp only [Session.step, hname, Option.some.injEq] at h
      exact h ▸ rfl
    | reset | setFlags | setReporterFlags | report =>
      cases h
      rfl
    | checkpoint =>
      rw [Session.step, checkpoint_eq] at h
      cases h
      rfl

/-- Whatever happens to a session, it sets off the kinds of errors in the same way. -/
theorem turns_paint {fuel : Nat} {s u : Session} {es : List Event} {turns : List Turn}
    (h : s.turns fuel es = some (turns, u)) : u.reporter.paint = s.reporter.paint := by
  induction es generalizing s turns with
  | nil =>
    cases h
    rfl
  | cons e es ih =>
    obtain ⟨⟨turn, t⟩, htake, hrest⟩ := Option.bind_eq_some_iff.1 h
    obtain ⟨⟨rest, v⟩, hturns, hv⟩ := Option.map_eq_some_iff.1 hrest
    cases hv
    have ht : t.reporter.paint = s.reporter.paint := by
      cases e with
      | does step =>
        obtain ⟨r, hstep, hr⟩ := Option.map_eq_some_iff.1 htake
        cases hr
        exact step_paint hstep
      | makes scope =>
        cases htake
        rfl
    exact (ih hturns).trans ht

section
variable {s u : Session} (hs : s.WellFormed)
include hs

theorem WellFormed.reset : s.reset.WellFormed :=
  ⟨(wellFormed_start s.reporter.paint hs.heap s.flags).heap,
    (wellFormed_start s.reporter.paint hs.heap s.flags).scope⟩

theorem WellFormed.runs {p : Expr} (hp : ∀ j ∈ p.captured, j < s.heap.size) {reply : Reply}
    (h : s.Runs p (reply, u)) : u.WellFormed := by
  rcases runs_iff.1 h with ⟨-, hr⟩ | ⟨-, -, hr⟩ | ⟨-, -, result, t, he, hr⟩
  · cases hr
    exact ⟨hs.heap, hs.scope⟩
  · cases hr
    exact ⟨hs.heap, hs.scope⟩
  · have hroots : ∀ j ∈ p.roots s.globalScope, j < s.heap.size := by
      intro j hj
      rcases List.mem_cons.1 hj with rfl | hj
      · exact hs.scope
      · exact hp j hj
    obtain ⟨hgrows, hwell, -⟩ := hs.heap.evaluates hroots he
    have hu : u = _ := (congrArg Prod.snd hr).trans (conclude_snd ..)
    exact hu ▸ ⟨hwell, hgrows.heap.lt_size hs.scope⟩

theorem WellFormed.takes {step : Step} (he : (Event.does step).Fits s.heap 0) {reply : Reply}
    (h : s.Takes step (reply, u)) : u.WellFormed := by
  cases hp : step.program? with
  | some p =>
    refine hs.runs (fun j hj => ?_) ((takes_program hp).1 h)
    exact (he.captured j (Event.captured_does hp ▸ hj)).2
  | none =>
    obtain ⟨fuel, h⟩ := h
    cases step with
    | run p => cases hp
    | sample name =>
      have hname : Sample.find? name = none := Option.map_eq_none_iff.1 hp
      simp only [Session.step, hname, Option.some.injEq, Prod.mk.injEq] at h
      exact h.2 ▸ hs
    | reset =>
      cases h
      exact hs.reset
    | setFlags | setReporterFlags | report =>
      cases h
      exact ⟨hs.heap, hs.scope⟩
    | checkpoint =>
      simp only [Session.step, checkpoint] at h
      split at h <;> cases h <;> exact ⟨hs.heap, hs.scope⟩

theorem WellFormed.take {fuel : Nat} {e : Event} (he : e.Fits s.heap 0) {turn : Option Turn}
    (h : s.take fuel e = some (turn, u)) : u.WellFormed := by
  cases e with
  | does step =>
    obtain ⟨⟨reply, v⟩, hstep, hv⟩ := Option.map_eq_some_iff.1 h
    cases hv
    exact hs.takes he ⟨fuel, hstep⟩
  | makes scope =>
    cases h
    have hscope : ∀ j, scope.enclosing = some j → j < s.heap.size :=
      fun j hj => (he.captured j (Event.enclosing_mem_captured hj)).2
    have hbindings : ∀ e ∈ scope.bindings, ∀ j ∈ e.2.captured, j < s.heap.size :=
      fun e hmem j hj => (he.captured j (Event.mem_captured_makes hmem hj)).2
    refine ⟨hs.heap.push hscope hbindings (he.distinct _ rfl), ?_⟩
    show s.globalScope < (s.heap.push scope).size
    rw [Heap.size_push]
    exact Nat.lt_succ_of_lt hs.scope

/-- Whatever happens to a session, its heap stays well formed. -/
theorem WellFormed.turns {fuel : Nat} {es : List Event} (hes : s.Fits fuel 0 es) {turns : List Turn}
    (h : s.turns fuel es = some (turns, u)) : u.WellFormed := by
  induction es generalizing s turns with
  | nil =>
    cases h
    exact hs
  | cons e es ih =>
    obtain ⟨⟨turn, t⟩, htake, hrest⟩ := Option.bind_eq_some_iff.1 h
    obtain ⟨⟨rest, v⟩, hturns, hv⟩ := Option.map_eq_some_iff.1 hrest
    cases hv
    exact ih (hs.take hes.1 htake) (hes.2 turn t htake) hturns

end

end Session

end Featherweight
