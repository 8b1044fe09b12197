import Featherweight.Proofs.Rename
import Featherweight.Proofs.WellFormed
import Mathlib.Logic.Equiv.Basic

/-! Names are arbitrary. A run under other names goes as the run did, as long as no two names become
one: it reads, binds and assigns the same scopes, takes the same branches, and fails at the same
node. Only texts tell the two apart, since messages and closures show names. -/
namespace Featherweight

/-- Two failures of one kind: the second is attached to the node of the first with other names. -/
inductive Failure.Renamed (r : Name → Name) : Failure → Failure → Prop
  | error {cause cause' : Cause} (node : Option Expr) : cause'.kind = cause.kind →
      Renamed r (.error cause node) (.error cause' (node.map (Expr.rename r)))
  | digitLimit : Renamed r .digitLimit .digitLimit

namespace Simulation

/-- A run next to itself under other names. What is written is not compared. -/
def equivariance (r : Name → Name) : Simulation where
  World := Unit
  Later _ _ := True
  States _ s t := t.heap = s.heap.rename r
  Programs _ i e j d := j = i ∧ d = e.rename r
  Values _ u v := v = u.rename r
  Failures _ := Failure.Renamed r

section
variable {r : Name → Name}

theorem equivariance_values {us vs : List Value}
    (h : List.Forall₂ ((equivariance r).Values ()) us vs) : vs = us.map (Value.rename r) := by
  induction h with
  | nil => rfl
  | cons hv _ ih => rw [List.map_cons, show _ = _ from hv, ih]

section
variable {α : Type} {A : Unit → α → α → Prop} {s t : State} (hs : t.heap = s.heap.rename r)
include hs

theorem equivariance_answer {a b : α} (hab : A () a b) :
    (equivariance r).Outcomes () A (some (.ok a, s)) (some (.ok b, t)) := by
  have hstates : (equivariance r).States () s t := hs
  exact .answer trivial hstates hab

theorem equivariance_done :
    (equivariance r).Outcomes () (equivariance r).Done (some (.ok (), s)) (some (.ok (), t)) :=
  equivariance_answer hs trivial

theorem equivariance_failure {f f' : Failure} (hf : f.Renamed r f') :
    (equivariance r).Outcomes () A (some (.error f, s)) (some (.error f', t)) := by
  have hstates : (equivariance r).States () s t := hs
  exact .failure trivial hstates hf

end

theorem sound_equivariance (hr : Function.Injective r) : (equivariance r).Sound where
  refl _ := trivial
  trans _ _ := trivial
  programs_later _ h := h
  values_later _ h := h
  nodes := by
    intro w i e j d h
    obtain ⟨rfl, rfl⟩ := h
    exact e.alike_rename r (fun _ _ => ⟨rfl, rfl⟩) fun _ _ => rfl
  fail := by
    intro w i e j d h cause
    obtain ⟨rfl, rfl⟩ := h
    exact .error (some e) rfl
  values := by
    intro w u v h
    obtain rfl : v = u.rename r := h
    exact u.alike_rename r
  plain w v hv := (Value.rename_of_kind hv r).symm
  function := by
    intro w i ps b j qs d h
    obtain ⟨rfl, hd⟩ := h
    cases hd
    rfl
  resolve := by
    intro w i x j y s t h hs
    obtain ⟨rfl, hd⟩ := h
    cases hd
    show t.heap.resolve j (r x) = _
    rw [show t.heap = _ from hs, s.heap.resolve_rename hr]
  printLine := by
    intro w u v s t hv hs
    obtain rfl : v = u.rename r := hv
    unfold Action.printLine Value.text?
    rw [u.isWritable_rename r]
    cases u.isWritable with
    | false => exact equivariance_failure hs .digitLimit
    | true => exact equivariance_done hs
  declare := by
    intro w i x e j y d u v s t h hv hs
    obtain ⟨rfl, hd⟩ := h
    cases hd
    obtain rfl : v = u.rename r := hv
    obtain ⟨heap, out⟩ := t
    obtain rfl : heap = s.heap.rename r := hs
    simp only [Action.declare, s.heap.binds_rename hr]
    split
    · exact equivariance_failure rfl (.error (some (.declare x e)) rfl)
    · exact equivariance_done (s.heap.put_rename hr j x u)
  assign := by
    intro w i x e j y d u v s t h hv hs
    obtain ⟨rfl, hd⟩ := h
    cases hd
    obtain rfl : v = u.rename r := hv
    obtain ⟨heap, out⟩ := t
    obtain rfl : heap = s.heap.rename r := hs
    exact equivariance_done (s.heap.assign_rename hr j x u)
  openFrame := by
    intro w ps b i qs d j us vs s t hc hvs _ hs
    cases hc
    obtain rfl := equivariance_values hvs
    obtain ⟨heap, out⟩ := t
    obtain rfl : heap = s.heap.rename r := hs
    have hnew := Bindings.declareAll_rename hr [] (ps.zip us)
    rw [Bindings.rename_nil] at hnew
    rw [Action.openFrame_apply, Action.openFrame_apply, Bindings.zip_rename, hnew]
    have hframe := s.heap.newFrame_rename r i (Bindings.declareAll [] (ps.zip us)).1
    cases (Bindings.declareAll [] (ps.zip us)).2 with
    | none => exact equivariance_answer hframe ⟨s.heap.size_rename r, rfl⟩
    | some x => exact equivariance_failure hframe (.error none rfl)

end

end Simulation

/-- Two results that differ in names. -/
inductive Result.Renamed (r : Name → Name) :
    Except Failure Value → Except Failure Value → Prop
  | value (v : Value) : Renamed r (.ok v) (.ok (v.rename r))
  | failure {f f' : Failure} : f.Renamed r f' → Renamed r (.error f) (.error f')

/-- Evaluation commutes with renaming. Under other names, no two of which are made one, a program
comes to a result if and only if it did: to the value with other names, or to a failure of the same
kind at the node with other names, or to the failure to write an integer. It leaves the heap that
it left, with other names. -/
theorem Expr.evaluates_rename {r : Name → Name} (hr : Function.Injective r) (h : Heap) (i : Nat)
    (e : Expr) (out out' : String) :
    ((∃ o, (e.rename r).Evaluates i ⟨h.rename r, out'⟩ o) ↔ ∃ o, e.Evaluates i ⟨h, out⟩ o) ∧
    ∀ res t, e.Evaluates i ⟨h, out⟩ (res, t) →
      ∃ res' t', (e.rename r).Evaluates i ⟨h.rename r, out'⟩ (res', t') ∧
        Result.Renamed r res res' ∧ t'.heap = t.heap.rename r := by
  obtain ⟨hboth, hend⟩ := (Simulation.sound_equivariance hr).evaluates (w := ()) (i := i) (e := e)
    (s := ⟨h, out⟩) (t := ⟨h.rename r, out'⟩) ⟨rfl, rfl⟩ rfl
  refine ⟨hboth.symm, ?_⟩
  intro res t he
  obtain ⟨⟨res', t'⟩, he'⟩ := hboth.1 ⟨_, he⟩
  obtain ⟨_, -, hstates, hresults⟩ := hend res t res' t' he he'
  refine ⟨res', t', he', ?_, hstates⟩
  cases hresults with
  | answer hv =>
    obtain rfl := hv
    exact .value _
  | failure hf => exact .failure hf

/-- The counter counts, and then its name is declared again. -/
def Expr.countAndRedeclare : Expr :=
  .seq (.call (.var "next") []) (.declare "next" (.literal (.int 7)))

/-- With the names of the counter and of its number exchanged, the number is counted up under its
new name, and the declaration fails where it did. -/
theorem countAndRedeclare_rename :
    ∃ cause t', cause.kind = .duplicateDeclaration ∧
      (Expr.countAndRedeclare.rename (Equiv.swap "n" "next")).Evaluates 0
        ⟨Heap.counter.rename (Equiv.swap "n" "next"), ""⟩
        (.error (.error cause (some (.declare "n" (.literal (.int 7))))), t') ∧
      t'.heap.bindings 1 = [("next", .int 1)] := by
  have he : Expr.countAndRedeclare.Evaluates 0 ⟨.counter, ""⟩ (.error (.error (.duplicate "next")
      (some (.declare "next" (.literal (.int 7))))), _) := ⟨6, rfl⟩
  obtain ⟨-, hend⟩ := Expr.evaluates_rename (Equiv.swap "n" "next").injective Heap.counter 0
    Expr.countAndRedeclare "" ""
  obtain ⟨res', t', he', hres, hheap⟩ := hend _ _ he
  cases hres with
  | failure hf =>
    cases hf with
    | @error _ cause' _ hkind =>
      refine ⟨cause', t', hkind, he', ?_⟩
      rw [hheap, Heap.bindings_rename]
      decide

end Featherweight
