import Featherweight.Proofs.Invariant
import Featherweight.Proofs.Reachable

/-! The region of a run: the old scopes that it may start from, and all scopes that it makes. If
no link leads out of the region, then a run stays in it. What a run never undoes is said along
with that: scopes and names stay, and links lead to older scopes. -/
namespace Featherweight

theorem Value.captured_of_kind {v : Value} (h : v.kind ≠ .closure) : v.captured = [] := by
  cases v with
  | closure => exact absurd rfl h
  | _ => rfl

namespace Bindings

theorem names_prefix_put (x : Name) (v : Value) (b : Bindings) :
    b.names <+: (b.put x v).names := by
  by_cases hx : x ∈ b.names
  · simp [names_put_of_mem hx]
  · rw [put_of_notMem hx, names_append]
    exact List.prefix_append ..

theorem nodup_put {b : Bindings} (h : b.names.Nodup) (x : Name) (v : Value) :
    (b.put x v).names.Nodup := by
  by_cases hx : x ∈ b.names
  · rwa [names_put_of_mem hx]
  · rw [put_of_notMem hx]
    exact nodup_snoc h hx v

end Bindings

namespace Heap

/-- Scopes stay, with the scopes around them, and names stay in their places. -/
structure Grows (h h' : Heap) : Prop where
  size : h.size ≤ h'.size
  enclosing : ∀ i < h.size, h'.enclosing? i = h.enclosing? i
  names : ∀ i < h.size, (h.bindings i).names <+: (h'.bindings i).names

theorem Grows.refl (h : Heap) : h.Grows h :=
  ⟨Nat.le_refl _, fun _ _ => rfl, fun _ _ => List.prefix_rfl⟩

theorem Grows.lt_size {h h' : Heap} (g : h.Grows h') {i : Nat} (hi : i < h.size) : i < h'.size := by
  have hsize := g.size
  omega

theorem Grows.trans {h h' h'' : Heap} (g : h.Grows h') (g' : h'.Grows h'') : h.Grows h'' := by
  refine ⟨Nat.le_trans g.size g'.size, fun i hi => ?_, fun i hi => ?_⟩
  · rw [g'.enclosing i (g.lt_size hi), g.enclosing i hi]
  · exact (g.names i hi).trans (g'.names i (g.lt_size hi))

theorem Grows.put (h : Heap) (i : Nat) (x : Name) (v : Value) : h.Grows (h.put i x v) := by
  refine ⟨by simp, fun j _ => enclosing?_put .., fun j hj => ?_⟩
  by_cases hij : i = j
  · subst hij
    rw [bindings_put_self hj]
    exact Bindings.names_prefix_put ..
  · simp [bindings_put_ne hij]

theorem Grows.push (h : Heap) (s : Scope) : h.Grows (h.push s) := by
  refine ⟨by simp, fun i hi => ?_, fun i hi => ?_⟩
  · exact enclosing?_push_ne (by omega) s
  · simp [bindings_push_ne (show i ≠ h.size by omega)]

theorem Grows.newFrame (h : Heap) (enclosing : Nat) (b : Bindings) :
    h.Grows (h.newFrame enclosing b) := .push h _

theorem Ordered.push {h : Heap} (ho : h.Ordered) {s : Scope}
    (hs : ∀ j, s.enclosing = some j → j < h.size) : (h.push s).Ordered := by
  intro i j hj
  by_cases hi : i = h.size
  · rw [hi, enclosing?_push_self] at hj
    exact hi ▸ hs j hj
  · rw [enclosing?_push_ne hi] at hj
    exact ho i j hj

theorem nodup_bindings_put {h : Heap} (hd : ∀ i, (h.bindings i).names.Nodup) (i : Nat) (x : Name)
    (v : Value) (j : Nat) : ((h.put i x v).bindings j).names.Nodup := by
  rcases Nat.lt_or_ge i h.size with hs | hs
  · by_cases hij : i = j
    · subst hij
      rw [bindings_put_self hs]
      exact Bindings.nodup_put (hd i) x v
    · rw [bindings_put_ne hij]
      exact hd j
  · rw [put_of_size_le hs]
    exact hd j

/-- Of the scopes below `base` those in `old`, and all scopes from there on. -/
def region (h : Heap) (base : Nat) (old : Set Nat) : Set Nat :=
  {i | i < h.size ∧ (i < base → i ∈ old)}

section
variable {h h' : Heap} {base : Nat} {old : Set Nat}

theorem mem_region {i : Nat} :
    i ∈ h.region base old ↔ i < h.size ∧ (i < base → i ∈ old) := Iff.rfl

@[simp] theorem region_put (i : Nat) (x : Name) (v : Value) :
    (h.put i x v).region base old = h.region base old := by
  simp [region]

theorem region_push (hb : base ≤ h.size) (s : Scope) :
    (h.push s).region base old = insert h.size (h.region base old) := by
  ext i
  rw [Set.mem_insert_iff, mem_region, mem_region, size_push]
  rcases Nat.lt_trichotomy i h.size with hi | rfl | hi
  · simp [hi, show i < h.size + 1 by omega, show i ≠ h.size by omega]
  · simp [show ¬ h.size < base by omega]
  · simp [show ¬ i < h.size + 1 by omega, show ¬ i < h.size by omega, show i ≠ h.size by omega]

theorem region_newFrame (hb : base ≤ h.size) (enclosing : Nat) (b : Bindings) :
    (h.newFrame enclosing b).region base old = insert h.size (h.region base old) :=
  region_push hb _

/-- The body of a closure of the region may be evaluated in a new scope. -/
theorem roots_newFrame (hb : base ≤ h.size) {body : Expr}
    (hc : ∀ j ∈ body.captured, j ∈ h.region base old) (enclosing : Nat) (b : Bindings) :
    ∀ j ∈ body.roots h.size, j ∈ (h.newFrame enclosing b).region base old := by
  intro j hj
  rw [region_newFrame hb]
  rcases List.mem_cons.1 hj with rfl | hj
  · exact .inl rfl
  · exact .inr (hc j hj)

theorem Grows.region_subset (g : h.Grows h') : h.region base old ⊆ h'.region base old :=
  fun _ hi => ⟨g.lt_size hi.1, hi.2⟩

end

/-- A heap that a run has come to which started in `h₀` and stays in its region. -/
structure Confined (h h₀ : Heap) (old : Set Nat) : Prop where
  size : h₀.size ≤ h.size
  ordered : h.Ordered
  distinct : ∀ i, (h.bindings i).names.Nodup
  closed : h.Closed (h.region h₀.size old)
  outside : ∀ i < h₀.size, i ∉ old → h.bindings i = h₀.bindings i

section
variable {h₀ h : Heap} {old : Set Nat} (hc : h.Confined h₀ old)
include hc

theorem Confined.put {i : Nat} (hi : i ∈ h.region h₀.size old) {v : Value}
    (hv : ∀ j ∈ v.captured, j ∈ h.region h₀.size old) (x : Name) :
    (h.put i x v).Confined h₀ old where
  size := by simpa using hc.size
  ordered := hc.ordered.put i x v
  distinct := nodup_bindings_put hc.distinct i x v
  closed := by simpa using hc.closed.put hv i x
  outside j hj hold := by
    -- The write is in the region, where all scopes below the start's size are in `old`.
    have hij : i ≠ j := fun hij => hold (hij ▸ hi.2 (hij ▸ hj))
    rw [bindings_put_ne hij]
    exact hc.outside j hj hold

theorem Confined.push {s : Scope} (hs : ∀ j, s.enclosing = some j → j ∈ h.region h₀.size old)
    (hb : ∀ e ∈ s.bindings, ∀ j ∈ e.2.captured, j ∈ h.region h₀.size old)
    (hd : s.bindings.names.Nodup) : (h.push s).Confined h₀ old where
  size := by simpa using Nat.le_succ_of_le hc.size
  ordered := hc.ordered.push fun j hj => (hs j hj).1
  distinct i := by
    by_cases hi : i = h.size
    · rwa [hi, bindings_push_self]
    · rw [bindings_push_ne hi]
      exact hc.distinct i
  closed := by
    rw [region_push hc.size]
    exact hc.closed.push hs hb
  outside i hi hold := by
    have hsize := hc.size
    rw [bindings_push_ne (show i ≠ h.size by omega)]
    exact hc.outside i hi hold

theorem Confined.newFrame {enclosing : Nat} (he : enclosing ∈ h.region h₀.size old) {b : Bindings}
    (hb : ∀ e ∈ b, ∀ j ∈ e.2.captured, j ∈ h.region h₀.size old) (hd : b.names.Nodup) :
    (h.newFrame enclosing b).Confined h₀ old :=
  hc.push (fun _ hj => Option.some.inj hj ▸ he) hb hd

end

end Heap

/-- What a run never undoes: the heap grows, and the output goes on. -/
structure State.Grows (s t : State) : Prop where
  heap : s.heap.Grows t.heap
  stdout : ∃ text, t.stdout = s.stdout ++ text

theorem State.Grows.refl (s : State) : s.Grows s :=
  ⟨.refl _, "", by simp⟩

theorem State.Grows.trans {s t u : State} (g : s.Grows t) (g' : t.Grows u) : s.Grows u := by
  obtain ⟨text, ht⟩ := g.stdout
  obtain ⟨text', ht'⟩ := g'.stdout
  exact ⟨g.heap.trans g'.heap, text ++ text', by rw [ht', ht, String.append_assoc]⟩

/-- A change of the heap alone. -/
theorem State.Grows.of_heap {s : State} {h : Heap} (g : s.heap.Grows h) :
    s.Grows { s with heap := h } :=
  ⟨g, "", by simp⟩

namespace Invariant

/-- Runs that start in `h₀` stay in the region of `old`. -/
def confinement (h₀ : Heap) (old : Set Nat) : Invariant where
  Good s := s.heap.Confined h₀ old
  Later := State.Grows
  Programs s i e := ∀ j ∈ e.roots i, j ∈ s.heap.region h₀.size old
  Values s v := ∀ j ∈ v.captured, j ∈ s.heap.region h₀.size old

theorem sound_confinement (h₀ : Heap) (old : Set Nat) : (confinement h₀ old).Sound where
  refl := State.Grows.refl
  trans := State.Grows.trans
  programs_later hl h j hj := hl.heap.region_subset (h j hj)
  values_later hl h j hj := hl.heap.region_subset (h j hj)
  children h hd j hj := h j (Expr.roots_of_child hd hj)
  literal h j hj := h j (List.mem_cons_of_mem _ hj)
  plain s v hv j hj := by
    rw [Value.captured_of_kind hv] at hj
    cases hj
  function h j hj := h j hj
  resolve hs h := hs.closed.resolve (h _ (List.mem_cons_self ..)) _
  printed hs text := ⟨⟨.refl _, text, rfl⟩, hs⟩
  declared hs h hv _ := ⟨.of_heap (.put ..), hs.put (h _ (List.mem_cons_self ..)) hv _⟩
  assigned {s i x e v} hs h hv := by
    have ht := hs.closed.target (h i (List.mem_cons_self ..)) x
    exact ⟨.of_heap (.put ..), hs.put ht hv x⟩
  opened {s ps b i vs new} hs hc hvs _ hnew := by
    have hi := hc i (List.mem_cons_self ..)
    have hb : ∀ e ∈ new.1, ∀ j ∈ e.2.captured, j ∈ s.heap.region h₀.size old := by
      intro e he
      rw [hnew] at he
      exact hvs e.2 (Bindings.snd_mem_of_mem_declareAll he)
    have hd : new.1.names.Nodup := by
      rw [hnew]
      exact Bindings.nodup_declareAll_nil _
    refine ⟨⟨.of_heap (.newFrame ..), hs.newFrame hi hb hd⟩, fun _ => ?_⟩
    exact Heap.roots_newFrame hs.size (fun j hj => hc j (List.mem_cons_of_mem _ hj)) i new.1

end Invariant

end Featherweight
