import Featherweight.Proofs.Reachable

/-! Heaps with further bindings of one name. Lookups of other names do not see them, and writes of
other names leave them where they are. -/
namespace Featherweight

mutual

/-- The names in a value: the parameters of a closure, and the names in its body. -/
def Value.vocabulary : Value → List Name
  | .closure params body _ => params ++ body.vocabulary
  | _ => []

/-- The names that are read, declared, assigned or parameters anywhere in a program, those in
closure literals included. -/
def Expr.vocabulary : Expr → List Name
  | .literal v => v.vocabulary
  | .var x => [x]
  | .print e => e.vocabulary
  | .binary _ l r => l.vocabulary ++ r.vocabulary
  | .cond c t e => c.vocabulary ++ t.vocabulary ++ e.vocabulary
  | .loop c b => c.vocabulary ++ b.vocabulary
  | .seq a b => a.vocabulary ++ b.vocabulary
  | .declare x e | .assign x e => x :: e.vocabulary
  | .function params body => params ++ body.vocabulary
  | .call f args => f.vocabulary ++ Expr.vocabularyAll args

/-- The names in several programs. -/
def Expr.vocabularyAll : List Expr → List Name
  | [] => []
  | e :: es => e.vocabulary ++ Expr.vocabularyAll es

end

theorem Value.vocabulary_of_kind {v : Value} (h : v.kind ≠ .closure) : v.vocabulary = [] := by
  cases v with
  | closure => exact absurd rfl h
  | _ => rfl

namespace Expr

theorem mem_vocabularyAll {es : List Expr} {x : Name} :
    x ∈ vocabularyAll es ↔ ∃ e ∈ es, x ∈ e.vocabulary := by
  induction es with
  | nil => simp [vocabularyAll]
  | cons e es ih => simp [vocabularyAll, ih]

theorem vocabulary_of_child {e d : Expr} (hd : d ∈ e.children) {x : Name} (hx : x ∈ d.vocabulary) :
    x ∈ e.vocabulary := by
  cases e with
  | literal | var | function => simp [children] at hd
  | call f args =>
    simp only [children, List.mem_cons] at hd
    simp only [vocabulary, List.mem_append, mem_vocabularyAll]
    rcases hd with rfl | hd
    · exact .inl hx
    · exact .inr ⟨d, hd, hx⟩
  | _ =>
    simp only [children, List.mem_cons, List.not_mem_nil, or_false] at hd
    simp only [vocabulary, List.mem_append, List.mem_cons]
    grind

end Expr

namespace Bindings

/-- The second bindings are the first with one of `x` to `v` put in, before any other of `x`. -/
inductive Inserted (x : Name) (v : Value) : Bindings → Bindings → Prop
  | here (b : Bindings) : Inserted x v b ((x, v) :: b)
  | later {y : Name} (w : Value) {b b' : Bindings} : y ≠ x → Inserted x v b b' →
      Inserted x v ((y, w) :: b) ((y, w) :: b')

theorem inserted_append {b : Bindings} {x : Name} (hx : x ∉ names b) (v : Value) :
    Inserted x v b (b ++ [(x, v)]) := by
  induction b with
  | nil => exact .here []
  | cons e b ih =>
    obtain ⟨y, w⟩ := e
    simp only [names, List.map_cons, List.mem_cons, not_or] at hx
    exact .later w (Ne.symm hx.1) (ih hx.2)

section
variable {x : Name} {v : Value} {b b' : Bindings} (h : Inserted x v b b')
include h

theorem Inserted.ne_nil : b' ≠ [] := by
  cases h <;> simp

theorem Inserted.find?_self : find? b' x = some v := by
  induction h with
  | here b => simp [find?]
  | later w hy _ ih => rwa [find?, if_neg hy]

theorem Inserted.find?_ne {y : Name} (hy : y ≠ x) : find? b' y = find? b y := by
  induction h with
  | here b => rw [find?, if_neg (Ne.symm hy)]
  | later w _ _ ih => rw [find?, find?, ih]

theorem Inserted.put {y : Name} (hy : y ≠ x) (u : Value) :
    Inserted x v (b.put y u) (b'.put y u) := by
  induction h with
  | here b =>
    have hput : Bindings.put y u ((x, v) :: b) = (x, v) :: b.put y u := if_neg (Ne.symm hy)
    rw [hput]
    exact .here _
  | @later z w b b' hz h ih =>
    rw [Bindings.put, Bindings.put]
    by_cases hzy : z = y
    · rw [if_pos hzy, if_pos hzy]
      exact .later u hy h
    · rw [if_neg hzy, if_neg hzy]
      exact .later w hz ih

end

end Bindings

namespace Heap

/-- The heap with a further binding of `x`, which comes last, in the scopes that `extra` gives a
value for. -/
def extend (h : Heap) (x : Name) (extra : Nat → Option Value) : Heap :=
  ⟨h.scopes.mapIdx fun i s =>
    { s with bindings := s.bindings ++ ((extra i).map fun v => (x, v)).toList }⟩

/-- The second heap is the first with a further binding of `x` in the scopes that `extra` gives a
value for, to that value. -/
structure Padded (x : Name) (extra : Nat → Option Value) (h h' : Heap) : Prop where
  size : h'.size = h.size
  enclosing : ∀ i, h'.enclosing? i = h.enclosing? i
  same : ∀ i, extra i = none → h'.bindings i = h.bindings i
  added : ∀ i v, extra i = some v → (h.bindings i).Inserted x v (h'.bindings i)

section
variable {x : Name} {extra : Nat → Option Value} {h : Heap}

theorem scope?_extend (i : Nat) : (h.extend x extra).scope? i = (h.scope? i).map fun s =>
    { s with bindings := s.bindings ++ ((extra i).map fun v => (x, v)).toList } := by
  simp [extend, scope?]

theorem padded_extend (hx : ∀ i v, extra i = some v → i < h.size ∧ x ∉ (h.bindings i).names) :
    h.Padded x extra (h.extend x extra) where
  size := by simp [extend, size]
  enclosing i := by
    rw [enclosing?, scope?_extend, enclosing?]
    cases h.scope? i <;> rfl
  same i hi := by
    rw [bindings, scope?_extend, bindings, hi]
    cases h.scope? i <;> simp
  added i v hi := by
    obtain ⟨hlt, hnew⟩ := hx i v hi
    have hs : h.scope? i = some h.scopes[i] := Array.getElem?_eq_getElem hlt
    have hext : (h.extend x extra).bindings i = h.bindings i ++ [(x, v)] := by
      simp [bindings, scope?_extend, hs, hi]
    rw [hext]
    exact Bindings.inserted_append hnew v

end

section
variable {x : Name} {extra : Nat → Option Value} {h h' : Heap} (hp : h.Padded x extra h')
include hp

theorem Padded.chain (i : Nat) : h'.chain i = h.chain i :=
  chain_congr hp.size hp.enclosing i

/-- There are no further bindings but in scopes of the heap. -/
theorem Padded.extra_eq_none {i : Nat} (hi : h.size ≤ i) : extra i = none := by
  cases hv : extra i with
  | none => rfl
  | some v =>
    have hi' : h'.size ≤ i := hp.size ▸ hi
    exact absurd (by simp [bindings, scope?_eq_none_iff.2 hi']) (hp.added i v hv).ne_nil

theorem Padded.newFrame (i : Nat) (b : Bindings) :
    (h.newFrame i b).Padded x extra (h'.newFrame i b) := by
  have hsize := hp.size
  have hnew := hp.extra_eq_none (Nat.le_refl _)
  refine ⟨by simp [hsize], fun j => ?_, fun j hj => ?_, fun j v hj => ?_⟩
  · by_cases hjs : j = h.size
    · rw [hjs, enclosing?_newFrame_self, ← hsize, enclosing?_newFrame_self]
    · rw [enclosing?_newFrame_ne hjs, enclosing?_newFrame_ne (hsize ▸ hjs), hp.enclosing]
  · by_cases hjs : j = h.size
    · rw [hjs, bindings_newFrame_self, ← hsize, bindings_newFrame_self]
    · rw [bindings_newFrame_ne hjs, bindings_newFrame_ne (hsize ▸ hjs), hp.same j hj]
  · have hjs : j ≠ h.size := by
      intro hjs
      rw [hjs, hnew] at hj
      cases hj
    rw [bindings_newFrame_ne hjs, bindings_newFrame_ne (hsize ▸ hjs)]
    exact hp.added j v hj

section
variable {y : Name} (hy : y ≠ x)
include hy

theorem Padded.find? (i : Nat) : h'.find? i y = h.find? i y := by
  rw [Heap.find?, Heap.find?]
  cases hi : extra i with
  | none => rw [hp.same i hi]
  | some v => exact (hp.added i v hi).find?_ne hy

theorem Padded.binds (i : Nat) : h'.binds i y = h.binds i y := by
  rw [Heap.binds, Heap.binds, hp.find? hy]

theorem Padded.resolve (i : Nat) : h'.resolve i y = h.resolve i y := by
  simp only [Heap.resolve, hp.chain, hp.find? hy]

theorem Padded.target (i : Nat) : h'.target i y = h.target i y := by
  simp only [Heap.target, owner?, globalOf, hp.chain, hp.binds hy]

theorem Padded.put (i : Nat) (u : Value) :
    (h.put i y u).Padded x extra (h'.put i y u) := by
  rcases Nat.lt_or_ge i h.size with hi | hi
  · have hi' : i < h'.size := hp.size ▸ hi
    refine ⟨by simp [hp.size], fun j => by simp [hp.enclosing], fun j hj => ?_, fun j v hj => ?_⟩
    · by_cases hij : i = j
      · subst hij
        rw [bindings_put_self hi, bindings_put_self hi', hp.same i hj]
      · rw [bindings_put_ne hij, bindings_put_ne hij, hp.same j hj]
    · by_cases hij : i = j
      · subst hij
        rw [bindings_put_self hi, bindings_put_self hi']
        exact (hp.added i v hj).put hy u
      · rw [bindings_put_ne hij, bindings_put_ne hij]
        exact hp.added j v hj
  · rwa [put_of_size_le hi, put_of_size_le (hp.size ▸ hi)]

end

end

end Heap

end Featherweight
