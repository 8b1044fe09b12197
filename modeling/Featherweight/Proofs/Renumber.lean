import Featherweight.Error
import Featherweight.Heap.Basic
import Featherweight.Proofs.Captured
import Featherweight.Proofs.OpenFrame
import Featherweight.Proofs.Simulation

/-! Programs and values with other numbers for the same scopes. Nothing but the captured scopes
changes, so what is shown of a value, and what an operator makes of it, stays. -/
namespace Featherweight

/-! ## Values and programs -/

mutual

/-- The value with `f` applied to the scopes that it captures, those in its body included. -/
def Value.renumber (f : Nat → Nat) : Value → Value
  | .closure params body i => .closure params (body.renumber f) (f i)
  | v => v

/-- The program with `f` applied to the scopes that its closure literals capture. -/
def Expr.renumber (f : Nat → Nat) : Expr → Expr
  | .literal v => .literal (v.renumber f)
  | .var x => .var x
  | .print e => .print (e.renumber f)
  | .binary op l r => .binary op (l.renumber f) (r.renumber f)
  | .cond c t e => .cond (c.renumber f) (t.renumber f) (e.renumber f)
  | .loop c b => .loop (c.renumber f) (b.renumber f)
  | .seq a b => .seq (a.renumber f) (b.renumber f)
  | .declare x e => .declare x (e.renumber f)
  | .assign x e => .assign x (e.renumber f)
  | .function params body => .function params (body.renumber f)
  | .call g args => .call (g.renumber f) (Expr.renumberAll f args)

/-- Several programs with `f` applied to the captured scopes. -/
def Expr.renumberAll (f : Nat → Nat) : List Expr → List Expr
  | [] => []
  | e :: es => e.renumber f :: Expr.renumberAll f es

end

mutual

theorem Value.captured_renumber (f : Nat → Nat) :
    ∀ v : Value, (v.renumber f).captured = v.captured.map f
  | .int _ | .bool _ | .undefined => rfl
  | .closure params body i => by
    rw [Value.renumber, Value.captured, Value.captured, Expr.captured_renumber, List.map_cons]

theorem Expr.captured_renumber (f : Nat → Nat) :
    ∀ e : Expr, (e.renumber f).captured = e.captured.map f
  | .literal v => v.captured_renumber f
  | .var _ => rfl
  | .print e | .declare _ e | .assign _ e | .function _ e => e.captured_renumber f
  | .cond c t e => by
    simp only [Expr.renumber, Expr.captured, List.map_append, Expr.captured_renumber f]
  | .binary _ a b | .loop a b | .seq a b => by
    simp only [Expr.renumber, Expr.captured, List.map_append, Expr.captured_renumber f]
  | .call g args => by
    rw [Expr.renumber, Expr.captured, Expr.captured, List.map_append, Expr.captured_renumber,
      Expr.capturedAll_renumber]

theorem Expr.capturedAll_renumber (f : Nat → Nat) :
    ∀ es, Expr.capturedAll (Expr.renumberAll f es) = (Expr.capturedAll es).map f
  | [] => rfl
  | e :: es => by
    rw [Expr.renumberAll, Expr.capturedAll, Expr.capturedAll, List.map_append,
      Expr.captured_renumber, Expr.capturedAll_renumber]

end

mutual

/-- Only the numbers of the captured scopes matter. -/
theorem Value.renumber_congr {f g : Nat → Nat} :
    ∀ v : Value, (∀ j ∈ v.captured, f j = g j) → v.renumber f = v.renumber g
  | .int _, _ | .bool _, _ | .undefined, _ => rfl
  | .closure params body i, h => by
    have hbody := Expr.renumber_congr body fun j hj => h j (List.mem_cons_of_mem _ hj)
    rw [Value.renumber, Value.renumber, hbody, h i (List.mem_cons_self ..)]

theorem Expr.renumber_congr {f g : Nat → Nat} :
    ∀ e : Expr, (∀ j ∈ e.captured, f j = g j) → e.renumber f = e.renumber g
  | .literal v, h => by rw [Expr.renumber, Expr.renumber, Value.renumber_congr v h]
  | .var _, _ => rfl
  | .print e, h | .declare _ e, h | .assign _ e, h | .function _ e, h => by
    rw [Expr.renumber, Expr.renumber, Expr.renumber_congr e h]
  | .cond c t e, h => by
    simp only [Expr.captured, List.forall_mem_append] at h
    rw [Expr.renumber, Expr.renumber, Expr.renumber_congr c h.1.1, Expr.renumber_congr t h.1.2,
      Expr.renumber_congr e h.2]
  | .binary _ a b, h | .loop a b, h | .seq a b, h => by
    simp only [Expr.captured, List.forall_mem_append] at h
    rw [Expr.renumber, Expr.renumber, Expr.renumber_congr a h.1, Expr.renumber_congr b h.2]
  | .call c args, h => by
    simp only [Expr.captured, List.forall_mem_append] at h
    rw [Expr.renumber, Expr.renumber, Expr.renumber_congr c h.1, Expr.renumberAll_congr args h.2]

theorem Expr.renumberAll_congr {f g : Nat → Nat} :
    ∀ es, (∀ j ∈ Expr.capturedAll es, f j = g j) → Expr.renumberAll f es = Expr.renumberAll g es
  | [], _ => rfl
  | e :: es, h => by
    simp only [Expr.capturedAll, List.forall_mem_append] at h
    rw [Expr.renumberAll, Expr.renumberAll, Expr.renumber_congr e h.1,
      Expr.renumberAll_congr es h.2]

end

namespace Expr

theorem renumberAll_eq_map (f : Nat → Nat) (es : List Expr) :
    renumberAll f es = es.map (renumber f) := by
  induction es with
  | nil => rfl
  | cons e es ih => rw [renumberAll, ih, List.map_cons]

theorem roots_renumber (f : Nat → Nat) (e : Expr) (i : Nat) :
    (e.renumber f).roots (f i) = (e.roots i).map f := by
  rw [roots, roots, captured_renumber, List.map_cons]

end Expr

namespace Value

theorem renumber_of_kind {v : Value} (h : v.kind ≠ .closure) (f : Nat → Nat) :
    v.renumber f = v := by
  cases v with
  | closure => exact absurd rfl h
  | _ => rfl

@[simp] theorem display_renumber (f : Nat → Nat) (v : Value) :
    (v.renumber f).display = v.display := by
  cases v <;> rfl

@[simp] theorem isWritable_renumber (f : Nat → Nat) (v : Value) :
    (v.renumber f).isWritable = v.isWritable := by
  cases v <;> rfl

@[simp] theorem text?_renumber (f : Nat → Nat) (v : Value) : (v.renumber f).text? = v.text? := by
  simp [text?]

theorem alike_renumber (f : Nat → Nat) (v : Value) : v.Alike (v.renumber f) := by
  cases v <;> constructor
  rfl

end Value

/-! ## Texts -/

mutual

theorem Expr.render_renumber (f : Nat → Nat) : ∀ e : Expr, (e.renumber f).render = e.render
  | .literal v => v.display_renumber f
  | .var _ => rfl
  | .print e | .declare _ e | .assign _ e | .function _ e => by
    rw [Expr.renumber, Expr.render, Expr.render, Expr.render_renumber f e]
  | .cond c t e => by
    simp only [Expr.renumber, Expr.render, Expr.render_renumber f]
  | .binary _ a b | .loop a b | .seq a b => by
    simp only [Expr.renumber, Expr.render, Expr.render_renumber f]
  | .call g args => by
    rw [Expr.renumber, Expr.render, Expr.render, Expr.render_renumber f g,
      Expr.renderAll_renumber f args]

theorem Expr.renderAll_renumber (f : Nat → Nat) :
    ∀ es, Expr.renderAll (Expr.renumberAll f es) = Expr.renderAll es
  | [] => rfl
  | e :: es => by
    rw [Expr.renumberAll, Expr.renderAll, Expr.renderAll, Expr.render_renumber f e,
      Expr.renderAll_renumber f es]

end

mutual

theorem Expr.isWritable_renumber (f : Nat → Nat) :
    ∀ e : Expr, (e.renumber f).isWritable = e.isWritable
  | .literal v => v.isWritable_renumber f
  | .var _ => rfl
  | .print e | .declare _ e | .assign _ e | .function _ e => e.isWritable_renumber f
  | .cond c t e => by
    simp only [Expr.renumber, Expr.isWritable, Expr.isWritable_renumber f]
  | .binary _ a b | .loop a b | .seq a b => by
    simp only [Expr.renumber, Expr.isWritable, Expr.isWritable_renumber f]
  | .call g args => by
    rw [Expr.renumber, Expr.isWritable, Expr.isWritable, Expr.isWritable_renumber f g,
      Expr.allWritable_renumber f args]

theorem Expr.allWritable_renumber (f : Nat → Nat) :
    ∀ es, Expr.allWritable (Expr.renumberAll f es) = Expr.allWritable es
  | [] => rfl
  | e :: es => by
    rw [Expr.renumberAll, Expr.allWritable, Expr.allWritable, Expr.isWritable_renumber f e,
      Expr.allWritable_renumber f es]

end

/-- The text of a program does not show the numbers of scopes. -/
@[simp] theorem Expr.text?_renumber (f : Nat → Nat) (e : Expr) :
    (e.renumber f).text? = e.text? := by
  rw [Expr.text?, Expr.text?, Expr.isWritable_renumber, Expr.render_renumber]

/-! ## Programs that stay as they are -/

mutual

theorem Value.renumber_id : ∀ v : Value, v.renumber id = v
  | .int _ | .bool _ | .undefined => rfl
  | .closure params body i => by
    rw [Value.renumber, Expr.renumber_id body]
    rfl

theorem Expr.renumber_id : ∀ e : Expr, e.renumber id = e
  | .literal v => by rw [Expr.renumber, Value.renumber_id v]
  | .var _ => rfl
  | .print e | .declare _ e | .assign _ e | .function _ e => by
    rw [Expr.renumber, Expr.renumber_id e]
  | .cond c t e => by
    rw [Expr.renumber, Expr.renumber_id c, Expr.renumber_id t, Expr.renumber_id e]
  | .binary _ a b | .loop a b | .seq a b => by
    rw [Expr.renumber, Expr.renumber_id a, Expr.renumber_id b]
  | .call g args => by
    rw [Expr.renumber, Expr.renumber_id g, Expr.renumberAll_id args]

theorem Expr.renumberAll_id : ∀ es, Expr.renumberAll id es = es
  | [] => rfl
  | e :: es => by
    rw [Expr.renumberAll, Expr.renumber_id e, Expr.renumberAll_id es]

end

/-- A program without closure literals has no numbers in it. -/
theorem Expr.renumber_of_closureFree {e : Expr} (h : e.ClosureFree) (f : Nat → Nat) :
    e.renumber f = e := by
  rw [Expr.renumber_congr (g := id) e fun j hj => ?_, e.renumber_id]
  rw [show e.captured = [] from h] at hj
  cases hj

/-- A node is alike to the same node with other numbers. -/
theorem Expr.alike_renumber (f : Nat → Nat) {e : Expr} {part : Expr → Expr → Prop}
    {value : Value → Value → Prop} (hp : ∀ d ∈ e.children, part d (d.renumber f))
    (hv : ∀ v, e = .literal v → value v (v.renumber f)) : e.Alike part value (e.renumber f) := by
  cases e with
  | literal v => exact .literal (hv v rfl)
  | call g args =>
    rw [renumber, renumberAll_eq_map]
    refine .call (hp g (List.mem_cons_self ..)) ?_
    rw [List.forall₂_map_right_iff, List.forall₂_same]
    exact fun a ha => hp a (List.mem_cons_of_mem _ ha)
  | _ => constructor <;> exact hp _ (by simp [children])

/-! ## Bindings, failures and scopes -/

namespace Bindings

/-- Bindings with other numbers for the scopes captured in them. -/
def renumber (f : Nat → Nat) (b : Bindings) : Bindings :=
  b.map fun e => (e.1, e.2.renumber f)

@[simp] theorem renumber_nil (f : Nat → Nat) : renumber f [] = [] := rfl

@[simp] theorem renumber_cons (f : Nat → Nat) (x : Name) (v : Value) (b : Bindings) :
    renumber f ((x, v) :: b) = (x, v.renumber f) :: renumber f b := rfl

@[simp] theorem renumber_append (f : Nat → Nat) (b c : Bindings) :
    renumber f (b ++ c) = renumber f b ++ renumber f c := by
  simp [renumber]

@[simp] theorem names_renumber (f : Nat → Nat) (b : Bindings) : names (b.renumber f) = names b := by
  simp [names, renumber]

theorem find?_renumber (f : Nat → Nat) (b : Bindings) (x : Name) :
    find? (b.renumber f) x = (find? b x).map (Value.renumber f) := by
  induction b with
  | nil => rfl
  | cons e b ih =>
    obtain ⟨y, v⟩ := e
    rw [renumber_cons, find?, find?]
    split
    · rfl
    · exact ih

theorem put_renumber (f : Nat → Nat) (b : Bindings) (x : Name) (v : Value) :
    (b.renumber f).put x (v.renumber f) = (b.put x v).renumber f := by
  induction b with
  | nil => rfl
  | cons e b ih =>
    obtain ⟨y, w⟩ := e
    rw [renumber_cons, put, put]
    split
    · rfl
    · rw [renumber_cons, ih]

theorem declareAll_renumber (f : Nat → Nat) (old new : Bindings) :
    declareAll (old.renumber f) (new.renumber f) =
      ((declareAll old new).1.renumber f, (declareAll old new).2) := by
  induction new generalizing old with
  | nil => rfl
  | cons e new ih =>
    obtain ⟨x, v⟩ := e
    rw [renumber_cons, declareAll, declareAll, names_renumber]
    split
    · rfl
    · rw [← ih, renumber_append, renumber_cons, renumber_nil]

theorem zip_renumber (f : Nat → Nat) (ps : List Name) (vs : List Value) :
    ps.zip (vs.map (Value.renumber f)) = renumber f (ps.zip vs) :=
  List.zip_map_right

theorem renumber_congr {f g : Nat → Nat} {b : Bindings}
    (h : ∀ e ∈ b, ∀ j ∈ e.2.captured, f j = g j) : b.renumber f = b.renumber g := by
  refine List.map_congr_left fun e he => ?_
  rw [Value.renumber_congr e.2 (h e he)]

end Bindings

/-- The failure with other numbers for the scopes captured in the attached node. -/
def Failure.renumber (f : Nat → Nat) : Failure → Failure
  | .error cause node => .error cause (node.map (Expr.renumber f))
  | .digitLimit => .digitLimit

/-- The scopes captured in the node that a failure is attached to. -/
def Failure.captured : Failure → List Nat
  | .error _ (some e) => e.captured
  | _ => []

namespace Scope

/-- The scope with other numbers for the scopes around it and in its bindings. -/
def renumber (f : Nat → Nat) (s : Scope) : Scope :=
  ⟨s.enclosing.map f, s.bindings.renumber f⟩

end Scope

end Featherweight
