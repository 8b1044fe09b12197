import Featherweight.Proofs.Footprint
import Featherweight.Proofs.Padding

/-! Bindings that nobody mentions are invisible. When a name occurs neither in a program nor in the
closures that it can reach, further bindings of that name change nothing about a run, whatever they
are bound to: no lookup finds them, no declaration runs into them, no assignment goes to them. -/
namespace Featherweight

/-! ## Oblivious programs and values -/

/-- The program can be evaluated in the scope without leaving the part, and does not mention the
name. -/
structure Expr.Oblivious (x : Name) (part : Set Nat) (i : Nat) (e : Expr) : Prop where
  roots : ∀ j ∈ e.roots i, j ∈ part
  vocabulary : x ∉ e.vocabulary

/-- The scopes captured in the value are in the part, and it does not mention the name. -/
structure Value.Oblivious (x : Name) (part : Set Nat) (v : Value) : Prop where
  captured : ∀ j ∈ v.captured, j ∈ part
  vocabulary : x ∉ v.vocabulary

section
variable {x : Name} {part part' : Set Nat}

theorem Expr.Oblivious.mono {i : Nat} {e : Expr} (h : e.Oblivious x part i) (hp : part ⊆ part') :
    e.Oblivious x part' i :=
  ⟨fun j hj => hp (h.roots j hj), h.vocabulary⟩

theorem Value.Oblivious.mono {v : Value} (h : v.Oblivious x part) (hp : part ⊆ part') :
    v.Oblivious x part' :=
  ⟨fun j hj => hp (h.captured j hj), h.vocabulary⟩

theorem Expr.Oblivious.child {i : Nat} {e d : Expr} (h : e.Oblivious x part i)
    (hd : d ∈ e.children) : d.Oblivious x part i :=
  ⟨fun j hj => h.roots j (roots_of_child hd hj), fun hx => h.vocabulary (vocabulary_of_child hd hx)⟩

theorem Expr.Oblivious.literal {i : Nat} {v : Value} (h : (Expr.literal v).Oblivious x part i) :
    v.Oblivious x part :=
  ⟨fun j hj => h.roots j (List.mem_cons_of_mem _ hj), h.vocabulary⟩

theorem Expr.Oblivious.function {i : Nat} {ps : List Name} {b : Expr}
    (h : (Expr.function ps b).Oblivious x part i) : (Value.closure ps b i).Oblivious x part :=
  ⟨h.roots, h.vocabulary⟩

theorem Value.oblivious_of_kind {v : Value} (hv : v.kind ≠ .closure) : v.Oblivious x part := by
  constructor
  · simp [Value.captured_of_kind hv]
  · simp [Value.vocabulary_of_kind hv]

end

/-! ## Heaps beside each other -/

namespace Heap

/-- No closure that is bound in the part mentions the name. -/
def Unmentioned (h : Heap) (x : Name) (part : Set Nat) : Prop :=
  ∀ i ∈ part, ∀ e ∈ h.bindings i, x ∉ e.2.vocabulary

/-- A heap that a run which started in `h₀` has come to, and beside it that of a run with further
bindings of `x`. In the region of the first, nothing mentions `x`. -/
structure Beside (x : Name) (extra : Nat → Option Value) (h h₀ : Heap) (old : Set Nat)
    (h' : Heap) : Prop where
  confined : h.Confined h₀ old
  unmentioned : h.Unmentioned x (h.region h₀.size old)
  padded : h.Padded x extra h'

section
variable {x : Name} {extra : Nat → Option Value} {h₀ h h' : Heap} {old : Set Nat}
  (hb : h.Beside x extra h₀ old h')
include hb

theorem Beside.resolve {i : Nat} {y : Name}
    (he : (Expr.var y).Oblivious x (h.region h₀.size old) i) :
    h'.resolve i y = h.resolve i y ∧ (h.resolve i y).Oblivious x (h.region h₀.size old) := by
  have hy : y ≠ x := fun hyx => he.vocabulary (hyx ▸ List.mem_singleton_self y)
  have hi := he.roots i (List.mem_cons_self ..)
  refine ⟨hb.padded.resolve hy i, hb.confined.closed.resolve hi y, ?_⟩
  rw [Heap.resolve]
  cases hv : (h.chain i).findSome? fun k => h.find? k y with
  | none => exact List.not_mem_nil
  | some v =>
    obtain ⟨k, hk, hv⟩ := List.exists_of_findSome?_eq_some hv
    exact hb.unmentioned k (hb.confined.closed.chain hi k hk) (y, v) (Bindings.mem_of_find? hv)

theorem Beside.put {i : Nat} (hi : i ∈ h.region h₀.size old) {y : Name} (hy : y ≠ x) {v : Value}
    (hv : v.Oblivious x (h.region h₀.size old)) :
    (h.put i y v).Beside x extra h₀ old (h'.put i y v) where
  confined := hb.confined.put hi hv.captured y
  unmentioned := by
    rw [region_put]
    intro j hj e he
    rcases mem_bindings_put he with rfl | he
    · exact hv.vocabulary
    · exact hb.unmentioned j hj e he
  padded := hb.padded.put hy i v

theorem Beside.newFrame {i : Nat} (hi : i ∈ h.region h₀.size old) {b : Bindings}
    (hv : ∀ e ∈ b, e.2.Oblivious x (h.region h₀.size old)) (hd : b.names.Nodup) :
    (h.newFrame i b).Beside x extra h₀ old (h'.newFrame i b) where
  confined := hb.confined.newFrame hi (fun e he => (hv e he).captured) hd
  unmentioned := by
    -- What the new scope binds are arguments, and those were values of the run.
    rw [region_newFrame hb.confined.size]
    intro j hj e he
    by_cases hjs : j = h.size
    · rw [hjs, bindings_newFrame_self] at he
      exact (hv e he).vocabulary
    · rw [bindings_newFrame_ne hjs] at he
      exact hb.unmentioned j (hj.resolve_left hjs) e he
  padded := hb.padded.newFrame i b

end

end Heap

/-! ## Runs beside each other -/

namespace Simulation

/-- Runs that differ in further bindings of `x`. The worlds are the heaps of the run without. -/
def padding (x : Name) (extra : Nat → Option Value) (h₀ : Heap) (old : Set Nat) :
    Simulation where
  World := Heap
  Later := Heap.Grows
  States w s t := s.heap = w ∧ t.stdout = s.stdout ∧ s.heap.Beside x extra h₀ old t.heap
  Programs w i e j d := j = i ∧ d = e ∧ e.Oblivious x (w.region h₀.size old) i
  Values w u v := v = u ∧ u.Oblivious x (w.region h₀.size old)
  Failures _ f g := g = f

section
variable {x : Name} {extra : Nat → Option Value} {h₀ : Heap} {old : Set Nat}

theorem padding_values {w : Heap} {us vs : List Value}
    (h : List.Forall₂ ((padding x extra h₀ old).Values w) us vs) :
    vs = us ∧ ∀ v ∈ us, v.Oblivious x (w.region h₀.size old) := by
  simpa using forall₂_image (f := id) h

section
variable {α : Type} {A : Heap → α → α → Prop} {s t : State} {h h' : Heap}
  (hout : t.stdout = s.stdout) (g : s.heap.Grows h) (hb : h.Beside x extra h₀ old h')
include hout g hb

/-- Both heaps change, and they stay beside each other. -/
theorem padding_answer {a b : α} (hab : A h a b) :
    (padding x extra h₀ old).Outcomes s.heap A (some (.ok a, { s with heap := h }))
      (some (.ok b, { t with heap := h' })) :=
  .answer g ⟨rfl, hout, hb⟩ hab

theorem padding_failure (f : Failure) :
    (padding x extra h₀ old).Outcomes s.heap A (some (.error f, { s with heap := h }))
      (some (.error f, { t with heap := h' })) :=
  .failure g ⟨rfl, hout, hb⟩ rfl

end

theorem sound_padding : (padding x extra h₀ old).Sound where
  refl := Heap.Grows.refl
  trans := Heap.Grows.trans
  programs_later g h := ⟨h.1, h.2.1, h.2.2.mono g.region_subset⟩
  values_later g h := ⟨h.1, h.2.mono g.region_subset⟩
  nodes := by
    intro w i e j d h
    obtain ⟨rfl, rfl, he⟩ := h
    refine .refl (fun d hd => ⟨rfl, rfl, he.child hd⟩) fun v hv => ?_
    subst hv
    exact ⟨rfl, he.literal⟩
  fail := by
    intro w i e j d h cause
    obtain ⟨-, rfl, -⟩ := h
    rfl
  values := by
    intro w u v h
    rw [h.1]
    exact .refl u
  plain w v hv := ⟨rfl, Value.oblivious_of_kind hv⟩
  function := by
    intro w i ps b j qs d h
    obtain ⟨rfl, hd, he⟩ := h
    cases hd
    exact ⟨rfl, he.function⟩
  resolve := by
    intro w i y j z s t h hs
    obtain ⟨rfl, hd, he⟩ := h
    cases hd
    obtain ⟨rfl, -, hb⟩ := hs
    exact hb.resolve he
  printLine := by
    intro w u v s t hv hs
    obtain ⟨rfl, -⟩ := hv
    obtain ⟨rfl, hout, hb⟩ := hs
    simp only [Action.printLine]
    cases v.text? with
    | none => exact padding_failure hout (.refl _) hb .digitLimit
    | some line =>
      have hline : t.stdout ++ line ++ "\n" = s.stdout ++ line ++ "\n" := by rw [hout]
      exact .answer (.refl _) ⟨rfl, hline, hb⟩ trivial
  declare := by
    intro w i y e j z d u v s t h hv hs
    obtain ⟨rfl, hd, he⟩ := h
    cases hd
    obtain ⟨rfl, hv⟩ := hv
    obtain ⟨rfl, hout, hb⟩ := hs
    have hy : y ≠ x := fun hyx => he.vocabulary (hyx ▸ List.mem_cons_self ..)
    have hi := he.roots j (List.mem_cons_self ..)
    simp only [Action.declare, hb.padded.binds hy]
    split
    · exact padding_failure hout (.refl _) hb _
    · exact padding_answer hout (.put ..) (hb.put hi hy hv) trivial
  assign := by
    intro w i y e j z d u v s t h hv hs
    obtain ⟨rfl, hd, he⟩ := h
    cases hd
    obtain ⟨rfl, hv⟩ := hv
    obtain ⟨rfl, hout, hb⟩ := hs
    have hy : y ≠ x := fun hyx => he.vocabulary (hyx ▸ List.mem_cons_self ..)
    have hi := hb.confined.closed.target (he.roots j (List.mem_cons_self ..)) y
    simp only [Action.assign, Heap.assign, hb.padded.target hy]
    exact padding_answer hout (.put ..) (hb.put hi hy hv) trivial
  openFrame := by
    intro w ps b i qs d j us vs s t hc hvs _ hs
    obtain ⟨hclosure, hc⟩ := hc
    cases hclosure
    obtain ⟨rfl, hvs⟩ := padding_values hvs
    obtain ⟨rfl, hout, hb⟩ := hs
    have hi := hc.captured i (List.mem_cons_self ..)
    have hframe := hb.newFrame hi (fun e he => hvs e.2 (Bindings.snd_mem_of_mem_declareAll he))
      (Bindings.nodup_declareAll_nil (ps.zip vs))
    rw [Action.openFrame_apply, Action.openFrame_apply]
    cases (Bindings.declareAll [] (ps.zip vs)).2 with
    | none =>
      refine padding_answer hout (.newFrame ..) hframe ⟨hb.padded.size, rfl, ?_, ?_⟩
      · exact Heap.roots_newFrame hb.confined.size
          (fun k hk => hc.captured k (List.mem_cons_of_mem _ hk)) i _
      · exact fun hx => hc.vocabulary (List.mem_append_right _ hx)
    | some y => exact padding_failure hout (.newFrame ..) hframe _

end

end Simulation

/-! ## Bindings that are added -/

/-- Further bindings of a name are invisible to a program if neither the program nor a closure that
it can reach mentions the name, whatever they are bound to. With them it comes to a result if and
only if it does without, and then to the same value or the same failure, with the same output. The
heaps that are left differ in these bindings, which have kept their values, and in nothing else. -/
theorem Expr.evaluates_extend {h : Heap} {i : Nat} {p : Expr} {x : Name}
    {extra : Nat → Option Value} (out : String) (hw : h.WellFormed)
    (hr : ∀ j ∈ p.roots i, j < h.size) (hp : x ∉ p.vocabulary)
    (hx : h.Unmentioned x (h.reachable (p.roots i)))
    (hextra : ∀ j v, extra j = some v → j < h.size ∧ x ∉ (h.bindings j).names) :
    ((∃ o, p.Evaluates i ⟨h.extend x extra, out⟩ o) ↔ ∃ o, p.Evaluates i ⟨h, out⟩ o) ∧
    ∀ r t, p.Evaluates i ⟨h, out⟩ (r, t) →
      ∃ heap, p.Evaluates i ⟨h.extend x extra, out⟩ (r, ⟨heap, t.stdout⟩) ∧
        t.heap.Padded x extra heap := by
  have hregion := hw.region_reachable hr
  have hb : h.Beside x extra h (h.reachable (p.roots i)) (h.extend x extra) :=
    ⟨hw.confined_reachable _, hregion.symm ▸ hx, h.padded_extend hextra⟩
  have hstart : p.Oblivious x (h.region h.size (h.reachable (p.roots i))) i :=
    ⟨fun j hj => ⟨hr j hj, fun _ => .root hj⟩, hp⟩
  have hsound : (Simulation.padding x extra h (h.reachable (p.roots i))).Sound :=
    Simulation.sound_padding
  obtain ⟨hboth, hend⟩ := hsound.evaluates (w := h) (s := ⟨h, out⟩) (t := ⟨h.extend x extra, out⟩)
    ⟨rfl, rfl, hstart⟩ ⟨rfl, rfl, hb⟩
  refine ⟨hboth.symm, ?_⟩
  intro r t hrun
  obtain ⟨⟨r', t'⟩, hrun'⟩ := hboth.1 ⟨_, hrun⟩
  obtain ⟨w, -, hstates, hresults⟩ := hend r t r' t' hrun hrun'
  obtain ⟨rfl, hout, hb'⟩ := hstates
  have hsame : r' = r := by
    cases hresults with
    | answer hv => exact congrArg Except.ok hv.1
    | failure hf => exact congrArg Except.error hf
  obtain ⟨heap, stdout⟩ := t'
  obtain rfl : stdout = t.stdout := hout
  exact ⟨heap, hsame ▸ hrun', hb'.padded⟩

namespace Heap

/-- A number for the global scope, and a function that would change it for the scope of the
counter. -/
def spare (j : Nat) : Option Value :=
  if j = 0 then some (.int 7)
  else if j = 1 then some (.closure [] (.assign "spare" (.literal (.int 8))) 2)
  else none

end Heap

/-- The counter counts as if the bindings of another name were not there, and they stay. -/
theorem counter_call_extend :
    ∃ heap, (Expr.call (.var "next") []).Evaluates 0
        ⟨Heap.counterBeside.extend "spare" Heap.spare, ""⟩ (.ok (.int 1), ⟨heap, ""⟩) ∧
      heap.find? 1 "n" = some (.int 1) ∧ heap.find? 0 "spare" = some (.int 7) ∧
      heap.find? 1 "spare" = some (.closure [] (.assign "spare" (.literal (.int 8))) 2) := by
  have he : (Expr.call (.var "next") []).Evaluates 0 ⟨.counterBeside, ""⟩ (.ok (.int 1), _) :=
    ⟨5, rfl⟩
  have hr : ∀ j ∈ (Expr.call (.var "next") []).roots 0, j < Heap.counterBeside.size := by decide
  have hregion := Heap.wellFormed_counterBeside.region_reachable hr
  have hx : Heap.counterBeside.Unmentioned "spare"
      (Heap.counterBeside.reachable ((Expr.call (.var "next") []).roots 0)) := by
    rw [← hregion]
    have hall : ∀ j < 3, ∀ e ∈ Heap.counterBeside.bindings j, "spare" ∉ e.2.vocabulary := by decide
    exact fun j hj => hall j hj.1
  have hextra : ∀ j v, Heap.spare j = some v →
      j < Heap.counterBeside.size ∧ "spare" ∉ (Heap.counterBeside.bindings j).names := by
    intro j v hj
    have hlt : j < 2 := by
      unfold Heap.spare at hj
      grind
    have hall : ∀ j < 2, j < Heap.counterBeside.size ∧
        "spare" ∉ (Heap.counterBeside.bindings j).names := by decide
    exact hall j hlt
  obtain ⟨-, hend⟩ :=
    Expr.evaluates_extend "" Heap.wellFormed_counterBeside hr (by decide) hx hextra
  obtain ⟨heap, hrun, hpadded⟩ := hend _ _ he
  refine ⟨heap, hrun, ?_, (hpadded.added 0 _ rfl).find?_self, (hpadded.added 1 _ rfl).find?_self⟩
  rw [hpadded.find? (by decide)]
  rfl

end Featherweight
