import Featherweight.Proofs.Lexical

/-! Names that a run adds. A scope gets new names in two ways: a declaration binds in the scope that
it is evaluated in, and an assignment that finds no binding makes one in a global scope. Of the
old scopes only the one that a run starts in has declarations evaluated in it, and these stand in
the program outside of all functions. -/
namespace Featherweight

/-! ## What can gain a name -/

/-- What is written anywhere in a program: in its parts, in the bodies of functions, and in those
of closure literals. -/
inductive Expr.Contains (p : Expr) : Expr → Prop
  | here : Contains p p
  | child {e d} : Contains p e → d ∈ e.children → Contains p d
  | body {ps b} : Contains p (.function ps b) → Contains p b
  | literal {ps b i} : Contains p (.literal (.closure ps b i)) → Contains p b

namespace Heap

/-- Some scope binds a closure with this body. -/
def Holds (h : Heap) (body : Expr) : Prop :=
  ∃ j x ps k, (x, Value.closure ps body k) ∈ h.bindings j

/-- The code that a run can come to: it is written in the program, or in the body of a closure
that the heap holds when the run starts. -/
def Written (h : Heap) (p e : Expr) : Prop :=
  p.Contains e ∨ ∃ body, h.Holds body ∧ body.Contains e

/-- The names that a scope may get in a run of a program in scope `i`: a global scope the names that
are assigned to, and the scope `i` those declared outside of all functions. -/
def Gains (h : Heap) (i : Nat) (p : Expr) (j : Nat) (x : Name) : Prop :=
  h.isGlobal j = true ∧ (∃ e, h.Written p (.assign x e)) ∨
    j = i ∧ ∃ e, p.Occurs [] (.declare x e)

section
variable {h : Heap} {p e : Expr}

theorem Written.child (hw : h.Written p e) {d : Expr} (hd : d ∈ e.children) : h.Written p d := by
  rcases hw with hp | ⟨body, hb, he⟩
  · exact .inl (hp.child hd)
  · exact .inr ⟨body, hb, he.child hd⟩

theorem Written.body {ps b} (hw : h.Written p (.function ps b)) : h.Written p b := by
  rcases hw with hp | ⟨body, hb, he⟩
  · exact .inl hp.body
  · exact .inr ⟨body, hb, he.body⟩

theorem Written.literal {ps b i} (hw : h.Written p (.literal (.closure ps b i))) :
    h.Written p b := by
  rcases hw with hp | ⟨body, hb, he⟩
  · exact .inl hp.literal
  · exact .inr ⟨body, hb, he.literal⟩

/-- The value, if it is a closure, has a body that is written. -/
def BodyWritten (h : Heap) (p : Expr) (v : Value) : Prop :=
  ∀ ps b k, v = .closure ps b k → h.Written p b

theorem BodyWritten.of_kind {v : Value} (hv : v.kind ≠ .closure) : h.BodyWritten p v := by
  intro ps b k hc
  exact absurd (by rw [hc]; rfl) hv

/-- A name stands for a value that some scope binds it to, if it stands for any. -/
theorem resolve_mem (h : Heap) (i : Nat) (x : Name) :
    h.resolve i x = .undefined ∨ ∃ j, (x, h.resolve i x) ∈ h.bindings j := by
  unfold Heap.resolve
  cases hv : (h.chain i).findSome? fun k => h.find? k x with
  | none => exact .inl rfl
  | some v =>
    obtain ⟨j, -, hj⟩ := List.exists_of_findSome?_eq_some hv
    exact .inr ⟨j, Bindings.mem_of_find? hj⟩

/-- An assignment finds the name bound, or else it writes to a global scope. -/
theorem Ordered.target_binds_or_isGlobal (ho : h.Ordered) {i : Nat} (hi : i < h.size) (x : Name) :
    x ∈ (h.bindings (h.target i x)).names ∨ h.isGlobal (h.target i x) = true := by
  unfold Heap.target
  cases hx : h.owner? i x with
  | some j =>
    have hj := List.find?_some (p := fun j => h.binds j x) hx
    exact .inl (Bindings.find?_isSome_iff.1 hj)
  | none => exact .inr (List.find?_some (ho.find?_isGlobal hi))

theorem Grows.isGlobal {h' : Heap} (g : h.Grows h') {i : Nat} (hi : i < h.size) :
    h'.isGlobal i = h.isGlobal i := by
  rw [Heap.isGlobal, Heap.isGlobal, g.enclosing i hi]

end

/-! ## Names in the heap of a run -/

/-- A heap that a run of `p` has come to which started in scope `i` of `h₀`: all code is written in
the program or was there, and no old scope has got names that it may not get. -/
structure Named (h h₀ : Heap) (i : Nat) (p : Expr) : Prop where
  confined : h.Confined h₀ Set.univ
  grows : h₀.Grows h
  written : ∀ j, ∀ e ∈ h.bindings j, h₀.BodyWritten p e.2
  gained : ∀ j < h₀.size, ∀ x ∈ (h.bindings j).names, x ∈ (h₀.bindings j).names ∨ h₀.Gains i p j x

section
variable {h₀ h : Heap} {i : Nat} {p : Expr} (hn : h.Named h₀ i p)
include hn

theorem Named.put {j : Nat} (hj : j < h.size) {v : Value} (hv : ∀ k ∈ v.captured, k < h.size)
    (hb : h₀.BodyWritten p v) {x : Name}
    (hx : j < h₀.size → x ∈ (h.bindings j).names ∨ h₀.Gains i p j x) :
    (h.put j x v).Named h₀ i p where
  confined := hn.confined.put (mem_region_univ.2 hj) (fun k hk => mem_region_univ.2 (hv k hk)) x
  grows := hn.grows.trans (.put ..)
  written k e he := by
    rcases mem_bindings_put he with rfl | he
    · exact hb
    · exact hn.written k e he
  gained k hk y hy := by
    by_cases hjk : j = k
    · subst hjk
      rw [bindings_put_self hj] at hy
      obtain ⟨e, he, rfl⟩ := List.mem_map.1 hy
      rcases Bindings.mem_put he with rfl | he
      · exact (hx hk).elim (hn.gained j hk x) .inr
      · exact hn.gained j hk e.1 (List.mem_map_of_mem he)
    · rw [bindings_put_ne hjk] at hy
      exact hn.gained k hk y hy

theorem Named.newFrame {j : Nat} (hj : j < h.size) {b : Bindings}
    (hb : ∀ e ∈ b, (∀ k ∈ e.2.captured, k < h.size) ∧ h₀.BodyWritten p e.2)
    (hd : b.names.Nodup) : (h.newFrame j b).Named h₀ i p where
  confined := hn.confined.newFrame (mem_region_univ.2 hj)
    (fun e he k hk => mem_region_univ.2 ((hb e he).1 k hk)) hd
  grows := hn.grows.trans (.newFrame ..)
  written k e he := by
    by_cases hk : k = h.size
    · rw [hk, bindings_newFrame_self] at he
      exact (hb e he).2
    · rw [bindings_newFrame_ne hk] at he
      exact hn.written k e he
  gained k hk y hy := by
    have hsize := hn.grows.size
    rw [bindings_newFrame_ne (show k ≠ h.size by omega)] at hy
    exact hn.gained k hk y hy

/-- Old scopes that get no names keep theirs as they are. -/
theorem Named.names_eq {j : Nat} (hj : j < h₀.size) (hno : ∀ x, ¬ h₀.Gains i p j x) :
    (h.bindings j).names = (h₀.bindings j).names := by
  obtain ⟨new, hnew⟩ := hn.grows.names j hj
  have hnodup : ((h₀.bindings j).names ++ new).Nodup := hnew ▸ hn.confined.distinct j
  cases new with
  | nil => rw [← hnew, List.append_nil]
  | cons x new =>
    -- The first new name would be an old one too.
    have hx := hn.gained j hj x (by simp [← hnew])
    have hold := hx.resolve_right (hno x)
    exact absurd rfl ((List.nodup_append.1 hnodup).2.2 x hold x (List.mem_cons_self ..))

end

end Heap

/-! ## Runs -/

namespace Invariant

/-- Runs of `p` in scope `i` of `h₀`: of the old scopes only `i` has programs evaluated in it, and
these are parts of `p` outside of all functions. -/
def naming (h₀ : Heap) (i : Nat) (p : Expr) : Invariant where
  Good s := s.heap.Named h₀ i p
  Later := State.Grows
  Programs s j e := (∀ k ∈ e.roots j, k < s.heap.size) ∧ h₀.Written p e ∧
    (j < h₀.size → j = i ∧ p.Occurs [] e)
  Values s v := (∀ k ∈ v.captured, k < s.heap.size) ∧ h₀.BodyWritten p v

theorem sound_naming (h₀ : Heap) (i : Nat) (p : Expr) : (naming h₀ i p).Sound where
  refl := State.Grows.refl
  trans := State.Grows.trans
  programs_later g h := ⟨fun k hk => g.heap.lt_size (h.1 k hk), h.2⟩
  values_later g h := ⟨fun k hk => g.heap.lt_size (h.1 k hk), h.2⟩
  children h hd := by
    refine ⟨fun k hk => h.1 k (Expr.roots_of_child hd hk), h.2.1.child hd, fun hj => ?_⟩
    obtain ⟨hji, ho⟩ := h.2.2 hj
    exact ⟨hji, ho.child hd⟩
  literal h := by
    refine ⟨fun k hk => h.1 k (List.mem_cons_of_mem _ hk), ?_⟩
    rintro ps b k rfl
    exact h.2.1.literal
  plain s v hv := by
    refine ⟨fun k hk => ?_, .of_kind hv⟩
    rw [Value.captured_of_kind hv] at hk
    cases hk
  function h := by
    refine ⟨h.1, ?_⟩
    rintro ps b k ⟨⟩
    exact h.2.1.body
  resolve {s j x} hs _ := by
    rcases s.heap.resolve_mem j x with hx | ⟨k, hk⟩
    · rw [hx]
      exact ⟨by simp, .of_kind (by simp [Value.kind])⟩
    · exact ⟨hs.confined.wellFormed.captured k _ hk, hs.written k _ hk⟩
  printed hs text := ⟨⟨.refl _, text, rfl⟩, hs⟩
  declared {s j x e v} hs h hv _ := by
    have hj : j < s.heap.size := h.1 j (List.mem_cons_self ..)
    refine ⟨.of_heap (.put ..), hs.put hj hv.1 hv.2 fun hold => ?_⟩
    obtain ⟨hji, ho⟩ := h.2.2 hold
    exact .inr (.inr ⟨hji, e, ho⟩)
  assigned {s j x e v} hs h hv := by
    have hj : j < s.heap.size := h.1 j (List.mem_cons_self ..)
    have ht : s.heap.target j x < s.heap.size :=
      Heap.mem_region_univ.1 (hs.confined.closed.target (Heap.mem_region_univ.2 hj) x)
    refine ⟨.of_heap (.put ..), hs.put ht hv.1 hv.2 fun hold => ?_⟩
    rcases hs.confined.ordered.target_binds_or_isGlobal hj x with hx | hg
    · exact .inl hx
    · exact .inr (.inl ⟨hs.grows.isGlobal hold ▸ hg, e, h.2.1⟩)
  opened {s ps b j vs new} hs hc hvs _ hnew := by
    have hj : j < s.heap.size := hc.1 j (List.mem_cons_self ..)
    have hb : ∀ e ∈ new.1, (∀ k ∈ e.2.captured, k < s.heap.size) ∧ h₀.BodyWritten p e.2 := by
      intro e he
      rw [hnew] at he
      exact hvs e.2 (Bindings.snd_mem_of_mem_declareAll he)
    have hd : new.1.names.Nodup := by
      rw [hnew]
      exact Bindings.nodup_declareAll_nil _
    refine ⟨⟨.of_heap (.newFrame ..), hs.newFrame hj hb hd⟩, fun _ => ?_⟩
    refine ⟨fun k hk => ?_, hc.2 ps b j rfl, fun hold => ?_⟩
    · show k < (s.heap.newFrame j new.1).size
      rw [Heap.size_newFrame]
      rcases List.mem_cons.1 hk with rfl | hk
      · exact Nat.lt_succ_self _
      · exact Nat.lt_succ_of_lt (hc.1 k (List.mem_cons_of_mem _ hk))
    · -- The body is evaluated in the new scope, which is none of the old ones.
      exact absurd hs.grows.size (Nat.not_le.2 hold)

end Invariant

theorem Heap.WellFormed.named {h : Heap} (hw : h.WellFormed) (i : Nat) (p : Expr) :
    h.Named h i p where
  confined := hw.confined h.closed_univ
  grows := .refl h
  written j e he := by
    intro ps b k hc
    obtain ⟨x, v⟩ := e
    cases hc
    exact .inr ⟨b, ⟨j, x, ps, k, he⟩, .here⟩
  gained _ _ _ hx := .inl hx

/-- However a run ends, an old scope that is not global and not the one it started in binds the same
names as before; the scope it started in, if it is not global, has got no names but those that
the program declares outside of all functions; and a global scope has got no names but those,
and those that the program, or a closure that the heap held before, assigns to. -/
theorem Expr.evaluates_names {h : Heap} {i : Nat} {p : Expr} {out : String}
    {r : Except Failure Value} {t : State} (hw : h.WellFormed) (hr : ∀ j ∈ p.roots i, j < h.size)
    (he : p.Evaluates i ⟨h, out⟩ (r, t)) :
    (∀ j < h.size, h.isGlobal j = false → j ≠ i →
      (t.heap.bindings j).names = (h.bindings j).names) ∧
    (h.isGlobal i = false → ∀ x ∈ (t.heap.bindings i).names, x ∉ (h.bindings i).names →
      ∃ e, p.Occurs [] (.declare x e)) ∧
    ∀ g < h.size, h.isGlobal g = true → ∀ x ∈ (t.heap.bindings g).names, x ∉ (h.bindings g).names →
      (∃ e, p.Contains (.assign x e)) ∨
      (∃ body e, h.Holds body ∧ body.Contains (.assign x e)) ∨
      g = i ∧ ∃ e, p.Occurs [] (.declare x e) := by
  have hstart : (Invariant.naming h i p).Programs ⟨h, out⟩ i p :=
    ⟨hr, .inl .here, fun _ => ⟨rfl, .here⟩⟩
  obtain ⟨⟨-, hnamed⟩, -⟩ :=
    (Invariant.sound_naming h i p).evaluates (s := ⟨h, out⟩) (hw.named i p) hstart he
  refine ⟨fun j hj hlocal hji => ?_, fun hlocal x hx hnew => ?_, fun g hg hglobal x hx hnew => ?_⟩
  · refine hnamed.names_eq hj fun x hgain => ?_
    rcases hgain with ⟨hglobal, -⟩ | ⟨rfl, -⟩
    · exact absurd hglobal (by simp [hlocal])
    · exact hji rfl
  · have hi : i < h.size := hr i (List.mem_cons_self ..)
    rcases (hnamed.gained i hi x hx).resolve_left hnew with ⟨hglobal, -⟩ | ⟨-, hdeclared⟩
    · exact absurd hglobal (by simp [hlocal])
    · exact hdeclared
  · rcases (hnamed.gained g hg x hx).resolve_left hnew with ⟨-, e, hp | ⟨b, hb, hc⟩⟩ | hdeclared
    · exact .inl ⟨e, hp⟩
    · exact .inr (.inl ⟨b, e, hb, hc⟩)
    · exact .inr (.inr hdeclared)

/-- A declaration and an assignment, and then a call. -/
def Expr.declareAssignCall : Expr :=
  Expr.sequence (.declare "m" (.literal (.int 1)))
    [.assign "g" (.literal (.int 2)), .call (.var "next") []]

theorem declareAssignCall_names :
    ∃ t, Expr.declareAssignCall.Evaluates 1 ⟨.counter, ""⟩ (.ok (.int 1), t) ∧
      (t.heap.bindings 0).names = ["next", "g"] ∧ (t.heap.bindings 1).names = ["n", "m"] ∧
      (∃ e, Expr.declareAssignCall.Occurs [] (.declare "m" e)) ∧
      ((∃ e, Expr.declareAssignCall.Contains (.assign "g" e)) ∨
        ∃ body e, Heap.counter.Holds body ∧ body.Contains (.assign "g" e)) := by
  have he : Expr.declareAssignCall.Evaluates 1 ⟨.counter, ""⟩ (.ok (.int 1), _) := ⟨8, rfl⟩
  obtain ⟨-, hlocal, hglobal⟩ := Expr.evaluates_names Heap.wellFormed_counter (by decide) he
  refine ⟨_, he, rfl, rfl, hlocal (by decide) "m" (by decide) (by decide), ?_⟩
  rcases hglobal 0 (by decide) (by decide) "g" (by decide) (by decide) with h | h | h
  · exact .inl h
  · exact .inr h
  · exact absurd h.1 (by decide)

end Featherweight
