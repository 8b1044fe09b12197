import Featherweight.Proofs.Correspondence
import Featherweight.Proofs.WellFormed

/-! Scopes are anonymous. From starts that correspond, two runs go alike: they come to
corresponding results with the same output, or both do not come to one. What is not reachable
from the starts has no influence, and neither have the numbers of scopes. -/
namespace Featherweight

/-! ## Results with other numbers -/

/-- How an evaluation ends. -/
abbrev Result := Except Failure Value

namespace Result

/-- The result with other numbers for the scopes captured in it. -/
def renumber (f : Nat → Nat) : Result → Result
  | .ok v => .ok (v.renumber f)
  | .error e => .error (e.renumber f)

/-- The scopes captured by a value, or in the node that a failure is attached to. -/
def captured : Result → List Nat
  | .ok v => v.captured
  | .error e => e.captured

theorem captured_renumber (f : Nat → Nat) (r : Result) :
    (r.renumber f).captured = r.captured.map f := by
  cases r with
  | ok v => exact v.captured_renumber f
  | error e =>
    cases e with
    | error cause node =>
      cases node with
      | none => rfl
      | some e => exact e.captured_renumber f
    | digitLimit => rfl

end Result

namespace Heap

/-! ## Two heaps abreast -/

/-- Pairs scopes in runs that start in two heaps: old ones by `f`, and those that the runs make in
order of creation. -/
def pairing (f : Nat → Nat) (h₀ h₀' : Heap) (i : Nat) : Nat :=
  if i < h₀.size then f i else h₀'.size + (i - h₀.size)

theorem pairing_of_lt {f : Nat → Nat} {h₀ h₀' : Heap} {i : Nat} (hi : i < h₀.size) :
    pairing f h₀ h₀' i = f i :=
  if_pos hi

/-- Two heaps that runs which started in `h₀` and `h₀'` have come to. Both runs stay in their
regions, and have made equally many scopes; the regions correspond. -/
structure Abreast (f : Nat → Nat) (h h₀ : Heap) (old : Set Nat) (h' h₀' : Heap)
    (old' : Set Nat) : Prop where
  left : h.Confined h₀ old
  right : h'.Confined h₀' old'
  size : pairing f h₀ h₀' h.size = h'.size
  regions : h.Corresponds (pairing f h₀ h₀') (h.region h₀.size old) h' (h'.region h₀'.size old')

section
variable {f : Nat → Nat} {h h₀ h' h₀' : Heap} {old old' : Set Nat}

theorem Abreast.start (hc : h.Confined h old) (hc' : h'.Confined h' old')
    (hr : h.region h.size old = old) (hr' : h'.region h'.size old' = old')
    (hf : h.Corresponds f old h' old') : h.Abreast f h old h' h' old' where
  left := hc
  right := hc'
  size := by simp [pairing]
  regions := by
    rw [hr, hr']
    refine hf.congr (hr ▸ hc.closed) fun i hi => (pairing_of_lt ?_).symm
    rw [← hr] at hi
    exact hi.1

variable (ha : h.Abreast f h₀ old h' h₀' old')
include ha

/-- Captured scopes of the region are taken to the other region. -/
theorem Abreast.captured {v : Value} (hv : ∀ j ∈ v.captured, j ∈ h.region h₀.size old) :
    ∀ j ∈ (v.renumber (pairing f h₀ h₀')).captured, j ∈ h'.region h₀'.size old' := by
  intro j hj
  rw [Value.captured_renumber] at hj
  obtain ⟨k, hk, rfl⟩ := List.mem_map.1 hj
  exact ha.regions.bijOn.mapsTo (hv k hk)

theorem Abreast.resolve {i : Nat} (hi : i ∈ h.region h₀.size old) (x : Name) :
    h'.resolve (pairing f h₀ h₀' i) x = (h.resolve i x).renumber (pairing f h₀ h₀') :=
  ha.regions.resolve ha.left.closed ha.left.ordered ha.right.ordered hi x

theorem Abreast.target {i : Nat} (hi : i ∈ h.region h₀.size old) (x : Name) :
    h'.target (pairing f h₀ h₀' i) x = pairing f h₀ h₀' (h.target i x) :=
  ha.regions.target ha.left.closed ha.left.ordered ha.right.ordered hi x

theorem Abreast.put {i : Nat} (hi : i ∈ h.region h₀.size old) {v : Value}
    (hv : ∀ j ∈ v.captured, j ∈ h.region h₀.size old) (x : Name) :
    (h.put i x v).Abreast f h₀ old
      (h'.put (pairing f h₀ h₀' i) x (v.renumber (pairing f h₀ h₀'))) h₀' old' where
  left := ha.left.put hi hv x
  right := ha.right.put (ha.regions.bijOn.mapsTo hi) (ha.captured hv) x
  size := by rw [size_put, size_put, ha.size]
  regions := by
    rw [region_put, region_put]
    exact ha.regions.put hi x v

theorem Abreast.push {s : Scope} (hs : ∀ j, s.enclosing = some j → j ∈ h.region h₀.size old)
    (hb : ∀ e ∈ s.bindings, ∀ j ∈ e.2.captured, j ∈ h.region h₀.size old)
    (hd : s.bindings.names.Nodup) :
    (h.push s).Abreast f h₀ old (h'.push (s.renumber (pairing f h₀ h₀'))) h₀' old' where
  left := ha.left.push hs hb hd
  right := by
    refine ha.right.push (fun j hj => ?_) (fun e he => ?_) (by simpa [Scope.renumber] using hd)
    · obtain ⟨k, hk, rfl⟩ := Option.map_eq_some_iff.1 hj
      exact ha.regions.bijOn.mapsTo (hs k hk)
    · obtain ⟨e, hmem, rfl⟩ := List.mem_map.1 he
      exact ha.captured (hb e hmem)
  size := by
    have hsize := ha.size
    have hle := ha.left.size
    rw [size_push, size_push, ← hsize, pairing, pairing, if_neg (by omega), if_neg (by omega)]
    omega
  regions := by
    rw [region_push ha.left.size, region_push ha.right.size]
    exact ha.regions.push (fun j hj => hj.1) ha.size s

theorem Abreast.newFrame {i : Nat} (hi : i ∈ h.region h₀.size old) {b : Bindings}
    (hb : ∀ e ∈ b, ∀ j ∈ e.2.captured, j ∈ h.region h₀.size old) (hd : b.names.Nodup) :
    (h.newFrame i b).Abreast f h₀ old
      (h'.newFrame (pairing f h₀ h₀' i) (b.renumber (pairing f h₀ h₀'))) h₀' old' :=
  ha.push (fun _ hj => Option.some.inj hj ▸ hi) hb hd

end

end Heap

namespace Simulation

/-! ## Two runs abreast -/

/-- Runs from two starts whose old parts correspond. The worlds are the heaps of the first run. -/
def relocation (f : Nat → Nat) (s₀ : State) (old : Set Nat) (s₀' : State) (old' : Set Nat) :
    Simulation where
  World := Heap
  Later := Heap.Grows
  States w s t := s.heap = w ∧ s.heap.Abreast f s₀.heap old t.heap s₀'.heap old' ∧
    ∃ text, s.stdout = s₀.stdout ++ text ∧ t.stdout = s₀'.stdout ++ text
  Programs w i e j d := j = Heap.pairing f s₀.heap s₀'.heap i ∧
    d = e.renumber (Heap.pairing f s₀.heap s₀'.heap) ∧
    ∀ k ∈ e.roots i, k ∈ w.region s₀.heap.size old
  Values w u v := v = u.renumber (Heap.pairing f s₀.heap s₀'.heap) ∧
    ∀ k ∈ u.captured, k ∈ w.region s₀.heap.size old
  Failures w e d := d = e.renumber (Heap.pairing f s₀.heap s₀'.heap) ∧
    ∀ k ∈ e.captured, k ∈ w.region s₀.heap.size old

section
variable {f : Nat → Nat} {s₀ s₀' : State} {old old' : Set Nat}

/-- The same change on both sides. -/
theorem relocation_outcomes {w : Heap} {s t : State} {h h' : Heap}
    (hs : (relocation f s₀ old s₀' old').States w s t) (g : s.heap.Grows h)
    (ha : h.Abreast f s₀.heap old h' s₀'.heap old') :
    (relocation f s₀ old s₀' old').Outcomes w (relocation f s₀ old s₀' old').Done
      (some (.ok (), { s with heap := h })) (some (.ok (), { t with heap := h' })) := by
  obtain ⟨rfl, -, hout⟩ := hs
  exact .answer g ⟨rfl, ha, hout⟩ trivial

theorem relocation_values {w : Heap} {us vs : List Value}
    (h : List.Forall₂ ((relocation f s₀ old s₀' old').Values w) us vs) :
    vs = us.map (Value.renumber (Heap.pairing f s₀.heap s₀'.heap)) ∧
      ∀ v ∈ us, ∀ k ∈ v.captured, k ∈ w.region s₀.heap.size old :=
  forall₂_image h

theorem sound_relocation : (relocation f s₀ old s₀' old').Sound where
  refl := Heap.Grows.refl
  trans := Heap.Grows.trans
  programs_later g h := ⟨h.1, h.2.1, fun k hk => g.region_subset (h.2.2 k hk)⟩
  values_later g h := ⟨h.1, fun k hk => g.region_subset (h.2 k hk)⟩
  nodes := by
    intro w i e j d h
    obtain ⟨rfl, rfl, hr⟩ := h
    refine Expr.alike_renumber _ (fun c hc => ?_) (fun v hv => ?_)
    · exact ⟨rfl, rfl, fun k hk => hr k (Expr.roots_of_child hc hk)⟩
    · subst hv
      exact ⟨rfl, fun k hk => hr k (List.mem_cons_of_mem _ hk)⟩
  fail := by
    intro w i e j d h cause
    obtain ⟨-, rfl, hr⟩ := h
    exact ⟨rfl, fun k hk => hr k (List.mem_cons_of_mem _ hk)⟩
  values := by
    intro w u v h
    rw [h.1]
    exact u.alike_renumber _
  plain w v hv := by
    refine ⟨(Value.renumber_of_kind hv _).symm, ?_⟩
    simp [Value.captured_of_kind hv]
  function := by
    intro w i ps b j qs d h
    obtain ⟨rfl, hd, hr⟩ := h
    cases hd
    exact ⟨rfl, hr⟩
  resolve := by
    intro w i x j y s t h hs
    obtain ⟨rfl, hd, hr⟩ := h
    cases hd
    obtain ⟨rfl, ha, -⟩ := hs
    have hi := hr i (List.mem_cons_self ..)
    exact ⟨ha.resolve hi x, ha.left.closed.resolve hi x⟩
  printLine := by
    intro w u v s t hv hs
    obtain ⟨rfl, -⟩ := hv
    obtain ⟨rfl, ha, text, hout, hout'⟩ := hs
    simp only [Action.printLine, Value.text?_renumber]
    cases u.text? with
    | none =>
      exact .failure (.refl _) ⟨rfl, ha, text, hout, hout'⟩ ⟨rfl, by simp [Failure.captured]⟩
    | some line =>
      refine .answer (.refl _) ⟨rfl, ha, text ++ (line ++ "\n"), ?_, ?_⟩ trivial
      · simp [hout, String.append_assoc]
      · simp [hout', String.append_assoc]
  declare := by
    intro w i x e j y d u v s t h hv hs
    obtain ⟨rfl, hd, hr⟩ := h
    cases hd
    obtain ⟨rfl, hu⟩ := hv
    have hi := hr i (List.mem_cons_self ..)
    obtain ⟨rfl, ha, hout⟩ := id hs
    simp only [Action.declare, ha.regions.binds hi]
    split
    · exact .failure (.refl _) ⟨rfl, ha, hout⟩ ⟨rfl, fun k hk => hr k (List.mem_cons_of_mem _ hk)⟩
    · exact relocation_outcomes hs (.put ..) (ha.put hi hu x)
  assign := by
    intro w i x e j y d u v s t h hv hs
    obtain ⟨rfl, hd, hr⟩ := h
    cases hd
    obtain ⟨rfl, hu⟩ := hv
    have hi := hr i (List.mem_cons_self ..)
    obtain ⟨rfl, ha, -⟩ := id hs
    simp only [Action.assign, Heap.assign, ha.target hi]
    exact relocation_outcomes hs (.put ..) (ha.put (ha.left.closed.target hi x) hu x)
  openFrame := by
    intro w ps b i qs d j us vs s t hc hvs _ hs
    obtain ⟨hclosure, hcaptured⟩ := hc
    cases hclosure
    obtain ⟨rfl, hvalues⟩ := relocation_values hvs
    obtain ⟨rfl, ha, hout⟩ := hs
    have hi := hcaptured i (List.mem_cons_self ..)
    have hframe := ha.newFrame hi (fun e he => hvalues e.2 (Bindings.snd_mem_of_mem_declareAll he))
      (Bindings.nodup_declareAll_nil (ps.zip us))
    -- Both sides declare the same names, so both stop at the same one, if any.
    have hnew := Bindings.declareAll_renumber (Heap.pairing f s₀.heap s₀'.heap) [] (ps.zip us)
    rw [Bindings.renumber_nil] at hnew
    rw [Action.openFrame_apply, Action.openFrame_apply, Bindings.zip_renumber, hnew]
    cases (Bindings.declareAll [] (ps.zip us)).2 with
    | none =>
      refine .answer (.newFrame ..) ⟨rfl, hframe, hout⟩ ⟨ha.size.symm, rfl, ?_⟩
      have hbody : ∀ j ∈ b.captured, j ∈ s.heap.region s₀.heap.size old :=
        fun j hj => hcaptured j (List.mem_cons_of_mem _ hj)
      exact Heap.roots_newFrame ha.left.size hbody i _
    | some x =>
      exact .failure (.newFrame ..) ⟨rfl, hframe, hout⟩ ⟨rfl, by simp [Failure.captured]⟩

theorem relocation_results {w : Heap} {r r' : Result}
    (h : (relocation f s₀ old s₀' old').Results w r r') :
    r' = r.renumber (Heap.pairing f s₀.heap s₀'.heap) ∧
      ∀ k ∈ r.captured, k ∈ w.region s₀.heap.size old := by
  cases h with
  | answer hv => exact ⟨congrArg Except.ok hv.1, hv.2⟩
  | failure he => exact ⟨congrArg Except.error he.1, he.2⟩

end

end Simulation

/-! ## From corresponding starts -/

/-- Evaluation depends on the reachable part of the heap only, and not on the numbers of scopes.
From starts with corresponding reachable parts, either both runs come to a result or both do not.
Results are the same up to a pairing that extends the given one to the new scopes; so are the
heaps, where the runs may have been and in what is reachable then; the output is the same. -/
theorem Expr.evaluates_relocated {f : Nat → Nat} {h h' : Heap} {i i' : Nat} {e e' : Expr}
    (out out' : String) (hw : h.WellFormed) (hw' : h'.WellFormed)
    (hr : ∀ j ∈ e.roots i, j < h.size) (hi : i' = f i) (he : e' = e.renumber f)
    (hf : h.Corresponds f (h.reachable (e.roots i)) h' (h'.reachable (e'.roots i'))) :
    ((∃ o, e.Evaluates i ⟨h, out⟩ o) ↔ ∃ o, e'.Evaluates i' ⟨h', out'⟩ o) ∧
    ∀ (r r' : Result) t t', e.Evaluates i ⟨h, out⟩ (r, t) → e'.Evaluates i' ⟨h', out'⟩ (r', t') →
      (∃ text, t.stdout = out ++ text ∧ t'.stdout = out' ++ text) ∧
      ∃ g, (∀ j ∈ h.reachable (e.roots i), g j = f j) ∧ r' = r.renumber g ∧
        t.heap.Corresponds g (t.heap.region h.size (h.reachable (e.roots i)))
          t'.heap (t'.heap.region h'.size (h'.reachable (e'.roots i'))) ∧
        t.heap.Corresponds g (t.heap.reachable (e.roots i ++ r.captured))
          t'.heap (t'.heap.reachable (e'.roots i' ++ r'.captured)) := by
  subst hi he
  have hr' : ∀ j ∈ (e.renumber f).roots (f i), j < h'.size := by
    intro j hj
    rw [Expr.roots_renumber] at hj
    obtain ⟨k, hk, rfl⟩ := List.mem_map.1 hj
    exact hf.lt_size (.root hk) (hr k hk)
  have hregion := hw.region_reachable hr
  -- The pairing of the runs extends the one that is given.
  have hg : ∀ j ∈ h.reachable (e.roots i), Heap.pairing f h h' j = f j := by
    intro j hj
    rw [← hregion] at hj
    exact Heap.pairing_of_lt hj.1
  have hsound : (Simulation.relocation f ⟨h, out⟩ (h.reachable (e.roots i)) ⟨h', out'⟩
    (h'.reachable ((e.renumber f).roots (f i)))).Sound := Simulation.sound_relocation
  have hstart := Heap.Abreast.start (hw.confined_reachable _) (hw'.confined_reachable _) hregion
    (hw'.region_reachable hr') hf
  have hcaptured : ∀ j ∈ e.captured, f j = Heap.pairing f h h' j :=
    fun j hj => (hg j (.root (List.mem_cons_of_mem _ hj))).symm
  -- With the same fuel the runs stay abreast until they end.
  obtain ⟨hboth, hend⟩ := hsound.evaluates (w := h) (i := i) (e := e) (s := ⟨h, out⟩)
    (t := ⟨h', out'⟩) ⟨(hg i (.root (List.mem_cons_self ..))).symm, Expr.renumber_congr e hcaptured,
      fun j hj => ⟨hr j hj, fun _ => .root hj⟩⟩ ⟨rfl, hstart, "", by simp, by simp⟩
  refine ⟨hboth, fun r r' t t' hrun hrun' => ?_⟩
  obtain ⟨w, hgrows, hstates, hresults⟩ := hend r t r' t' hrun hrun'
  obtain ⟨rfl, habreast, hout⟩ := hstates
  obtain ⟨rfl, hresult⟩ := Simulation.relocation_results hresults
  refine ⟨hout, Heap.pairing f h h', hg, rfl, habreast.regions, ?_⟩
  have hroots : (e.renumber f).roots (f i) = (e.roots i).map (Heap.pairing f h h') := by
    rw [Expr.roots_renumber]
    exact List.map_congr_left fun j hj => (hg j (.root hj)).symm
  rw [hroots, Result.captured_renumber, ← List.map_append]
  refine habreast.regions.reachable habreast.left.closed fun j hj => ?_
  rcases List.mem_append.1 hj with hj | hj
  · exact hgrows.region_subset ⟨hr j hj, fun _ => .root hj⟩
  · exact hresult j hj

namespace Heap

/-- The counter with another scope made before its own. -/
def counterMoved : Heap :=
  ((fresh.newFrame 0 [("hidden", .int 7)]).newFrame 0 [("n", .int 0)]).put 0 "next"
    (.closure [] (.assign "n" (.binary .add (.var "n") (.int 1))) 2)

theorem wellFormed_counterMoved : counterMoved.WellFormed := by
  have hhidden := wellFormed_fresh.newFrame (i := 0) (b := [("hidden", .int 7)]) (by decide)
    (by simp) (by decide)
  have hframe := hhidden.newFrame (i := 0) (b := [("n", .int 0)]) (by decide) (by simp) (by decide)
  exact hframe.put (by decide) (by decide) "next"

theorem corresponds_counterMoved :
    counter.Corresponds (fun i => 2 * i) (counter.reachable [0]) counterMoved
      (counterMoved.reachable [0]) := by
  have hc := (wellFormed_counter.confined counter.closed_univ).closed
  have hf : counter.Corresponds (fun i => 2 * i) (counter.region counter.size Set.univ) counterMoved
      ((fun i => 2 * i) '' counter.region counter.size Set.univ) := by
    refine ⟨Set.InjOn.bijOn_image fun i _ j _ hij => ?_, fun i hi => ?_⟩
    · exact Nat.eq_of_mul_eq_mul_left (by decide) hij
    · have hlt : i < 2 := mem_region_univ.1 hi
      obtain rfl | rfl : i = 0 ∨ i = 1 := by omega
      · rfl
      · rfl
  refine hf.reachable hc fun j hj => ?_
  obtain rfl := List.mem_singleton.1 hj
  exact mem_region_univ.2 (by decide)

end Heap

theorem counter_call_relocated :
    ∃ t t' g, (Expr.call (.var "next") []).Evaluates 0 ⟨.counter, ""⟩ (.ok (.int 1), t) ∧
      (Expr.call (.var "next") []).Evaluates 0 ⟨.counterMoved, ""⟩ (.ok (.int 1), t') ∧
      t.heap.Corresponds g (t.heap.reachable [0]) t'.heap (t'.heap.reachable [0]) := by
  have he : (Expr.call (.var "next") []).Evaluates 0 ⟨.counter, ""⟩ (.ok (.int 1), _) := ⟨5, rfl⟩
  have he' : (Expr.call (.var "next") []).Evaluates 0 ⟨.counterMoved, ""⟩ (.ok (.int 1), _) :=
    ⟨5, rfl⟩
  obtain ⟨-, hend⟩ := Expr.evaluates_relocated (e := .call (.var "next") []) (i := 0) "" ""
    Heap.wellFormed_counter Heap.wellFormed_counterMoved (by decide) rfl rfl
    Heap.corresponds_counterMoved
  obtain ⟨-, g, -, -, -, hreach⟩ := hend _ _ _ _ he he'
  exact ⟨_, _, g, he, he', hreach⟩

end Featherweight
