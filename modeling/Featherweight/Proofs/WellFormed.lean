import Featherweight.Proofs.Region
import Featherweight.Proofs.Task
import Featherweight.Proofs.Walk

/-! Well-formed heaps. Evaluation keeps a heap well formed and only adds to it, however it ends;
so the walks outward come to an end in every state that a run passes. -/
namespace Featherweight

namespace Heap

/-- Scopes are older than those inside them, closures capture scopes that exist, and a scope
binds no name twice. -/
structure WellFormed (h : Heap) : Prop where
  ordered : h.Ordered
  captured : ∀ i, ∀ e ∈ h.bindings i, ∀ j ∈ e.2.captured, j < h.size
  distinct : ∀ i, (h.bindings i).names.Nodup

theorem mem_region_univ {h : Heap} {base i : Nat} :
    i ∈ h.region base Set.univ ↔ i < h.size := by
  simp [mem_region]

theorem closed_univ (h : Heap) : h.Closed Set.univ :=
  ⟨fun _ _ _ _ => trivial, fun _ _ _ _ _ _ => trivial⟩

/-- In a well-formed heap a run is confined to any closed part that it starts in. -/
theorem WellFormed.confined {h : Heap} (hw : h.WellFormed) {old : Set Nat} (hc : h.Closed old) :
    h.Confined h old where
  size := Nat.le_refl _
  ordered := hw.ordered
  distinct := hw.distinct
  closed := by
    -- At the start there are no scopes but old ones, and no link leaves their part.
    refine ⟨fun i hi j hj => ?_, fun i hi e he j hj => ?_⟩
    · have hji : j < i := hw.ordered i j hj
      have his : i < h.size := hi.1
      exact ⟨show j < h.size by omega, fun _ => hc.enclosing i (hi.2 hi.1) j hj⟩
    · have hlt : j < h.size := hw.captured i e he j hj
      exact ⟨hlt, fun _ => hc.captured i (hi.2 hi.1) e he j hj⟩
  outside _ _ _ := rfl

/-- What is reachable from the start of a run in a well-formed heap confines the run. -/
theorem WellFormed.confined_reachable {h : Heap} (hw : h.WellFormed) (roots : List Nat) :
    h.Confined h (h.reachable roots) :=
  hw.confined (h.closed_reachable roots)

theorem WellFormed.region_reachable {h : Heap} (hw : h.WellFormed) {roots : List Nat}
    (hr : ∀ j ∈ roots, j < h.size) :
    h.region h.size (h.reachable roots) = h.reachable roots := by
  have hc := (hw.confined h.closed_univ).closed
  ext i
  constructor
  · exact fun hi => hi.2 hi.1
  · intro hi
    have hregion := hc.reachable_subset (fun j hj => mem_region_univ.2 (hr j hj)) hi
    exact ⟨hregion.1, fun _ => hi⟩

theorem Confined.wellFormed {h h₀ : Heap} (hc : h.Confined h₀ Set.univ) : h.WellFormed where
  ordered := hc.ordered
  captured i e he j hj := by
    rcases Nat.lt_or_ge i h.size with hi | hi
    · exact mem_region_univ.1 (hc.closed.captured i (mem_region_univ.2 hi) e he j hj)
    · simp [bindings, scope?_eq_none_iff.2 hi] at he
  distinct := hc.distinct

theorem WellFormed.put {h : Heap} (hw : h.WellFormed) {i : Nat} (hi : i < h.size) {v : Value}
    (hv : ∀ j ∈ v.captured, j < h.size) (x : Name) : (h.put i x v).WellFormed := by
  have hc := hw.confined h.closed_univ
  have hv' : ∀ j ∈ v.captured, j ∈ h.region h.size Set.univ :=
    fun j hj => mem_region_univ.2 (hv j hj)
  exact (hc.put (mem_region_univ.2 hi) hv' x).wellFormed

theorem WellFormed.push {h : Heap} (hw : h.WellFormed) {s : Scope}
    (hs : ∀ j, s.enclosing = some j → j < h.size)
    (hb : ∀ e ∈ s.bindings, ∀ j ∈ e.2.captured, j < h.size) (hd : s.bindings.names.Nodup) :
    (h.push s).WellFormed := by
  have hc := hw.confined h.closed_univ
  have hs' : ∀ j, s.enclosing = some j → j ∈ h.region h.size Set.univ :=
    fun j hj => mem_region_univ.2 (hs j hj)
  have hb' : ∀ e ∈ s.bindings, ∀ j ∈ e.2.captured, j ∈ h.region h.size Set.univ :=
    fun e he j hj => mem_region_univ.2 (hb e he j hj)
  exact (hc.push hs' hb' hd).wellFormed

theorem WellFormed.newFrame {h : Heap} (hw : h.WellFormed) {i : Nat} (hi : i < h.size)
    {b : Bindings} (hb : ∀ e ∈ b, ∀ j ∈ e.2.captured, j < h.size) (hd : b.names.Nodup) :
    (h.newFrame i b).WellFormed :=
  hw.push (fun _ hj => Option.some.inj hj ▸ hi) hb hd

/-- A new global scope. -/
theorem WellFormed.newScope {h : Heap} (hw : h.WellFormed) : (h.newScope none).WellFormed :=
  hw.push (fun _ hj => nomatch hj) (fun _ he => nomatch he) List.nodup_nil

/-- A heap with nothing but a new global scope. -/
def fresh : Heap := empty.newScope none

theorem bindings_fresh (i : Nat) : fresh.bindings i = [] := by
  rw [bindings, fresh, scope?_newScope]
  split
  · rfl
  · simp [scope?, empty]

theorem wellFormed_fresh : fresh.WellFormed where
  ordered := Ordered.empty.newScope (by simp)
  captured i e he := by
    rw [bindings_fresh] at he
    cases he
  distinct i := by
    rw [bindings_fresh]
    exact List.nodup_nil

end Heap

section
variable {h : Heap} {i : Nat} {e : Expr} {out : String} (hw : h.WellFormed)
  (hr : ∀ j ∈ e.roots i, j < h.size)
include hw hr

theorem Heap.WellFormed.evaluates {r : Except Failure Value} {t : State}
    (he : e.Evaluates i ⟨h, out⟩ (r, t)) :
    State.Grows ⟨h, out⟩ t ∧ t.heap.WellFormed ∧
      ∀ v, r = .ok v → ∀ j ∈ v.captured, j < t.heap.size := by
  have hI := Invariant.sound_confinement h Set.univ
  have hp : ∀ j ∈ e.roots i, j ∈ h.region h.size Set.univ :=
    fun j hj => Heap.mem_region_univ.2 (hr j hj)
  obtain ⟨⟨hgrows, hgood⟩, hv⟩ := hI.evaluates (s := ⟨h, out⟩) (hw.confined h.closed_univ) hp he
  exact ⟨hgrows, hgood.wellFormed, fun v hrv j hj => Heap.mem_region_univ.1 (hv v hrv j hj)⟩

theorem Heap.WellFormed.passes {s : State} (hs : Task.Passes ⟨i, e, ⟨h, out⟩⟩ s) :
    s.heap.WellFormed := by
  have hI := Invariant.sound_confinement h Set.univ
  have hp : ∀ j ∈ e.roots i, j ∈ h.region h.size Set.univ :=
    fun j hj => Heap.mem_region_univ.2 (hr j hj)
  have hgood : s.heap.Confined h Set.univ :=
    hI.passes (s := ⟨h, out⟩) (hw.confined h.closed_univ) hp hs
  exact hgood.wellFormed

end

/-- Evaluation in a well-formed heap, whether it ends in a value or fails, leaves a well-formed
heap with all the scopes, links and names that were there, and output that goes on; the value
captures scopes that exist. In all states that the run passes, walks outward come to an end. -/
theorem Expr.evaluates_wellFormed {h : Heap} {i : Nat} {e : Expr} (out : String)
    (hw : h.WellFormed) (hr : ∀ j ∈ e.roots i, j < h.size) :
    (∀ r t, e.Evaluates i ⟨h, out⟩ (r, t) →
      t.heap.WellFormed ∧ h.Grows t.heap ∧ (∃ text, t.stdout = out ++ text) ∧
        ∀ v, r = .ok v → ∀ j ∈ v.captured, j < t.heap.size) ∧
    ∀ s, Task.Passes ⟨i, e, ⟨h, out⟩⟩ s → s.heap.WellFormed ∧ s.heap.Walkable := by
  constructor
  · intro r t he
    obtain ⟨hgrows, hwell, hv⟩ := hw.evaluates hr he
    exact ⟨hwell, hgrows.heap, hgrows.stdout, hv⟩
  · intro s hs
    have hwell := hw.passes hr hs
    exact ⟨hwell, hwell.ordered.walkable⟩

namespace Heap

/-- A global scope, and a scope inside it that a counter keeps its number in. -/
def counter : Heap :=
  (fresh.newFrame 0 [("n", .int 0)]).put 0 "next"
    (.closure [] (.assign "n" (.binary .add (.var "n") (.int 1))) 1)

theorem wellFormed_counter : counter.WellFormed := by
  have hframe := wellFormed_fresh.newFrame (i := 0) (b := [("n", .int 0)]) (by decide) (by simp)
    (by decide)
  exact hframe.put (by decide) (by decide) "next"

end Heap

theorem counter_call_wellFormed :
    ∃ t, (Expr.call (.var "next") []).Evaluates 0 ⟨.counter, ""⟩ (.ok (.int 1), t) ∧
      t.heap.WellFormed ∧ Heap.counter.Grows t.heap ∧ t.heap.Walkable := by
  obtain ⟨hend, hpass⟩ := Expr.evaluates_wellFormed (e := .call (.var "next") []) (i := 0) ""
    Heap.wellFormed_counter (by decide)
  have he : (Expr.call (.var "next") []).Evaluates 0 ⟨.counter, ""⟩ (.ok (.int 1), _) := ⟨5, rfl⟩
  obtain ⟨hwell, hgrows, -, -⟩ := hend _ _ he
  exact ⟨_, he, hwell, hgrows, (hpass _ ⟨_, .refl, .inr ⟨_, he⟩⟩).2⟩

end Featherweight
