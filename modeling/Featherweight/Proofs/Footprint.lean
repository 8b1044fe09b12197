import Featherweight.Proofs.WellFormed

/-! What a run leaves alone. A run reads and writes what is reachable from its start, and the
scopes that it makes. The other scopes stay as they are, and out of its reach. -/
namespace Featherweight

namespace Heap

/-- From scopes of its region a run reaches no old scope that is not in it. -/
theorem Confined.old_of_reachable {h h₀ : Heap} {old : Set Nat} (hc : h.Confined h₀ old)
    {i : Nat} (hi : i ∈ h.region h₀.size old) {j : Nat} (hj : j ∈ h.reachable [i])
    (hlt : j < h₀.size) : j ∈ old := by
  have hregion : j ∈ h.region h₀.size old := by
    refine hc.closed.reachable_subset ?_ hj
    intro k hk
    exact List.mem_singleton.1 hk ▸ hi
  exact hregion.2 hlt

end Heap

/-- A scope that is not reachable from a program and its scope keeps its bindings, however the
run ends. A closure that the run returns captures a scope that was reachable or is new, and so do
the closure literals in its body. No old scope that was unreachable can be reached afterwards
from the start, from the value, or from a new scope. -/
theorem Expr.evaluates_footprint {h : Heap} {i : Nat} {e : Expr} {out : String}
    {r : Except Failure Value} {t : State} (hw : h.WellFormed)
    (hr : ∀ j ∈ e.roots i, j < h.size) (he : e.Evaluates i ⟨h, out⟩ (r, t)) :
    (∀ j < h.size, j ∉ h.reachable (e.roots i) → t.heap.bindings j = h.bindings j) ∧
    (∀ v, r = .ok v → ∀ j ∈ v.captured,
      j ∈ h.reachable (e.roots i) ∨ h.size ≤ j ∧ j < t.heap.size) ∧
    ∀ j < h.size, j ∉ h.reachable (e.roots i) → ∀ k,
      (k ∈ e.roots i ∨ (∃ v, r = .ok v ∧ k ∈ v.captured) ∨ h.size ≤ k ∧ k < t.heap.size) →
        j ∉ t.heap.reachable [k] := by
  have hI := Invariant.sound_confinement h (h.reachable (e.roots i))
  have hstart : ∀ j ∈ e.roots i, j ∈ h.region h.size (h.reachable (e.roots i)) :=
    fun j hj => ⟨hr j hj, fun _ => .root hj⟩
  obtain ⟨⟨hgrows, hgood⟩, hv⟩ :=
    hI.evaluates (s := ⟨h, out⟩) (hw.confined_reachable (e.roots i)) hstart he
  refine ⟨hgood.outside, fun v hrv j hj => ?_, fun j hlt hj k hk hreach => ?_⟩
  · -- The region consists of what was reachable and what is new.
    have hcaptured := hv v hrv j hj
    rcases Nat.lt_or_ge j h.size with hlt | hge
    · exact .inl (hcaptured.2 hlt)
    · exact .inr ⟨hge, hcaptured.1⟩
  · -- All these starts are in the region, which no link leaves.
    have hregion : k ∈ t.heap.region h.size (h.reachable (e.roots i)) := by
      rcases hk with hk | ⟨v, hrv, hk⟩ | ⟨hge, hlt'⟩
      · exact hgrows.heap.region_subset (hstart k hk)
      · exact hv v hrv k hk
      · exact ⟨hlt', fun hlt => by omega⟩
    exact hj (hgood.old_of_reachable hregion hreach hlt)

namespace Heap

/-- A counter, and beside it a scope that nothing leads to. -/
def counterBeside : Heap :=
  counter.newFrame 0 [("hidden", .int 7)]

theorem wellFormed_counterBeside : counterBeside.WellFormed :=
  wellFormed_counter.newFrame (by decide) (by simp) (by decide)

theorem notMem_reachable_counterBeside : 2 ∉ counterBeside.reachable [0] := by
  have hcaptured : ∀ i < 2, ∀ e ∈ counterBeside.bindings i, ∀ j ∈ e.2.captured, j < 2 := by
    decide
  have hc : counterBeside.Closed {i | i < 2} := by
    refine ⟨fun i hi j hj => ?_, hcaptured⟩
    have hji : j < i := wellFormed_counterBeside.ordered i j hj
    show j < 2
    have hi' : i < 2 := hi
    omega
  intro h
  exact absurd (hc.reachable_subset (by simp) h) (by simp)

end Heap

theorem counter_call_footprint :
    ∃ t, (Expr.call (.var "next") []).Evaluates 0 ⟨.counterBeside, ""⟩ (.ok (.int 1), t) ∧
      t.heap.bindings 1 = [("n", .int 1)] ∧ t.heap.bindings 2 = [("hidden", .int 7)] ∧
      2 ∉ t.heap.reachable [0] := by
  have he : (Expr.call (.var "next") []).Evaluates 0 ⟨.counterBeside, ""⟩ (.ok (.int 1), _) :=
    ⟨5, rfl⟩
  obtain ⟨hsame, -, hout⟩ :=
    Expr.evaluates_footprint Heap.wellFormed_counterBeside (by decide) he
  have h2 := Heap.notMem_reachable_counterBeside
  exact ⟨_, he, rfl, hsame 2 (by decide) h2, hout 2 (by decide) h2 0 (.inl (by decide))⟩

end Featherweight
