import Featherweight.Proofs.Captured
import Featherweight.Proofs.Simulation

/-! Invariants of single runs. An invariant that the basic actions keep is a simulation of every
run by itself, so it holds after evaluation, of values and of all states on the way. -/
namespace Featherweight

/-- A node next to itself. -/
theorem Expr.Alike.refl {part : Expr → Expr → Prop} {value : Value → Value → Prop} {e : Expr}
    (hp : ∀ d ∈ e.children, part d d) (hv : ∀ v, e = .literal v → value v v) :
    e.Alike part value e := by
  cases e with
  | literal v => exact .literal (hv v rfl)
  | call f args =>
    refine .call (hp f (List.mem_cons_self ..)) (List.forall₂_same.2 fun a ha => ?_)
    exact hp a (List.mem_cons_of_mem _ ha)
  | _ => constructor <;> exact hp _ (by simp [children])

/-- What is claimed of a run: of its states, of each state against the earlier ones, of the
programs that may be evaluated in a scope, and of the values that may occur. -/
structure Invariant where
  Good : State → Prop
  Later : State → State → Prop
  Programs : State → Nat → Expr → Prop
  Values : State → Value → Prop

namespace Invariant

/-- A good state that may come after another. -/
def Step (I : Invariant) (s t : State) : Prop :=
  I.Later s t ∧ I.Good t

/-- What an invariant must keep. Of a call, only the scope that it opens is of interest: the
declared names are in it, and if all are, then the body may be evaluated there. -/
structure Sound (I : Invariant) : Prop where
  refl : ∀ s, I.Later s s
  trans : ∀ {s t u}, I.Later s t → I.Later t u → I.Later s u
  programs_later : ∀ {s t i e}, I.Later s t → I.Programs s i e → I.Programs t i e
  values_later : ∀ {s t v}, I.Later s t → I.Values s v → I.Values t v
  children : ∀ {s i e d}, I.Programs s i e → d ∈ e.children → I.Programs s i d
  literal : ∀ {s i v}, I.Programs s i (.literal v) → I.Values s v
  plain : ∀ s {v}, v.kind ≠ .closure → I.Values s v
  function : ∀ {s i ps b}, I.Programs s i (.function ps b) → I.Values s (.closure ps b i)
  resolve : ∀ {s i x}, I.Good s → I.Programs s i (.var x) → I.Values s (s.heap.resolve i x)
  printed : ∀ {s}, I.Good s → ∀ text, I.Step s { s with stdout := s.stdout ++ text }
  declared : ∀ {s i x e v}, I.Good s → I.Programs s i (.declare x e) → I.Values s v →
    s.heap.binds i x = false → I.Step s { s with heap := s.heap.put i x v }
  assigned : ∀ {s i x e v}, I.Good s → I.Programs s i (.assign x e) → I.Values s v →
    I.Step s { s with heap := s.heap.assign i x v }
  opened : ∀ {s ps b i vs new}, I.Good s → I.Values s (.closure ps b i) →
    (∀ v ∈ vs, I.Values s v) → vs.length = ps.length →
    new = Bindings.declareAll [] (ps.zip vs) →
    I.Step s { s with heap := s.heap.newFrame i new.1 } ∧
      (new.2 = none → I.Programs { s with heap := s.heap.newFrame i new.1 } s.heap.size b)

/-- The run beside itself: what is related is equal and satisfies the invariant. -/
def simulation (I : Invariant) : Simulation where
  World := State
  Later := I.Later
  States w s t := s = w ∧ t = w ∧ I.Good w
  Programs w i e j d := i = j ∧ e = d ∧ I.Programs w i e
  Values w u v := I.Values w u ∧ u = v
  Failures _ f g := f = g

section
variable {I : Invariant}

theorem Step.outcomes {s t : State} (h : I.Step s t) :
    I.simulation.Outcomes s I.simulation.Done (some (.ok (), t)) (some (.ok (), t)) :=
  .answer h.1 ⟨rfl, rfl, h.2⟩ trivial

theorem values_forall₂ {s : State} {us vs : List Value}
    (h : List.Forall₂ (I.simulation.Values s) us vs) : (∀ v ∈ us, I.Values s v) ∧ us = vs := by
  obtain ⟨hv, he⟩ := (List.forall₂_and_left us vs).1 h
  exact ⟨hv, List.forall₂_eq_eq_eq ▸ he⟩

/-- The parts of a node satisfy the invariant. -/
theorem Sound.alike (hI : I.Sound) {s : State} {i : Nat} {e : Expr} (h : I.Programs s i e) :
    e.Alike (fun e d => I.simulation.Programs s i e i d) (I.simulation.Values s) e := by
  refine .refl (fun d hd => ⟨rfl, rfl, hI.children h hd⟩) fun v hv => ?_
  subst hv
  exact ⟨hI.literal h, rfl⟩

theorem Sound.simulation (hI : I.Sound) : I.simulation.Sound where
  refl := hI.refl
  trans := hI.trans
  programs_later := by
    intro w w' i e j d hw h
    obtain ⟨rfl, rfl, h⟩ := h
    exact ⟨rfl, rfl, hI.programs_later hw h⟩
  values_later := by
    intro w w' u v hw h
    exact ⟨hI.values_later hw h.1, h.2⟩
  nodes := by
    intro w i e j d h
    obtain ⟨rfl, rfl, h⟩ := h
    exact hI.alike h
  fail := by
    intro w i e j d h cause
    obtain ⟨-, rfl, -⟩ := h
    rfl
  values := by
    intro w u v h
    rw [← h.2]
    exact .refl u
  plain := fun w _ hv => ⟨hI.plain w hv, rfl⟩
  function := by
    intro w i ps b j qs d h
    obtain ⟨rfl, he, h⟩ := h
    cases he
    exact ⟨hI.function h, rfl⟩
  resolve := by
    intro w i x j y s t h hs
    obtain ⟨rfl, he, h⟩ := h
    cases he
    obtain ⟨rfl, rfl, hs⟩ := hs
    exact ⟨hI.resolve hs h, rfl⟩
  printLine := by
    intro w u v s t h hs
    obtain ⟨h, rfl⟩ := h
    obtain ⟨rfl, rfl, hs⟩ := hs
    simp only [Action.printLine]
    cases u.text? with
    | none => exact .failure (hI.refl t) ⟨rfl, rfl, hs⟩ rfl
    | some text => simpa [String.append_assoc] using (hI.printed hs (text ++ "\n")).outcomes
  declare := by
    intro w i x e j y d u v s t h hu hs
    obtain ⟨rfl, he, h⟩ := h
    cases he
    obtain ⟨hu, rfl⟩ := hu
    obtain ⟨rfl, rfl, hs⟩ := hs
    simp only [Action.declare]
    cases hb : t.heap.binds i x with
    | true => exact .failure (hI.refl t) ⟨rfl, rfl, hs⟩ rfl
    | false => exact (hI.declared hs h hu hb).outcomes
  assign := by
    intro w i x e j y d u v s t h hu hs
    obtain ⟨rfl, he, h⟩ := h
    cases he
    obtain ⟨hu, rfl⟩ := hu
    obtain ⟨rfl, rfl, hs⟩ := hs
    exact (hI.assigned hs h hu).outcomes
  openFrame := by
    intro w ps b i qs d j us vs s t hc hvs hl hs
    obtain ⟨hc, he⟩ := hc
    cases he
    obtain ⟨rfl, rfl, hs⟩ := hs
    obtain ⟨hus, rfl⟩ := values_forall₂ hvs
    rw [Action.openFrame_apply]
    obtain ⟨hstep, hbody⟩ := hI.opened hs hc hus hl rfl
    -- A name that occurs twice leaves the new scope behind, but no body to evaluate in it.
    cases hnew : (Bindings.declareAll [] (ps.zip us)).2 with
    | none => exact .answer hstep.1 ⟨rfl, rfl, hstep.2⟩ ⟨rfl, rfl, hbody hnew⟩
    | some x => exact .failure hstep.1 ⟨rfl, rfl, hstep.2⟩ rfl

/-- What is known of an action that is related to itself, once it comes to a result. -/
theorem result_of_acts (hI : I.Sound) {α : Type} {s t : State} {A : State → α → α → Prop}
    {m : Action α} (hm : I.simulation.Acts s A m m) (hs : I.Good s) {r : Except Failure α}
    (h : m s = some (r, t)) : I.Step s t ∧ ∀ a, r = .ok a → A t a a := by
  have ho := hm s (hI.refl s) s s ⟨rfl, rfl, hs⟩
  rw [h] at ho
  cases ho with
  | answer hl ht ha =>
    obtain ⟨rfl, -, hg⟩ := ht
    refine ⟨⟨hl, hg⟩, fun a hr => ?_⟩
    cases hr
    exact ha
  | failure hl ht _ =>
    obtain ⟨rfl, -, hg⟩ := ht
    exact ⟨⟨hl, hg⟩, by simp⟩

/-- Evaluation keeps an invariant. -/
theorem Sound.evaluates (hI : I.Sound) {i : Nat} {e : Expr} {s t : State}
    {r : Except Failure Value} (hs : I.Good s) (he : I.Programs s i e)
    (h : e.Evaluates i s (r, t)) : I.Step s t ∧ ∀ v, r = .ok v → I.Values t v := by
  obtain ⟨fuel, h⟩ := h
  obtain ⟨hstep, hv⟩ := result_of_acts hI (hI.simulation.eval fuel ⟨rfl, rfl, he⟩) hs h
  exact ⟨hstep, fun v hr => (hv v hr).1⟩

end

end Invariant

end Featherweight
