import Featherweight.Proofs.Footprint

/-! What an assignment does. It writes to one scope, and to the binding of one name in it. The
scopes that see the new value are those whose walk outward for the name comes to the written scope
before it finds the name elsewhere; all other lookups give what they gave before. -/
namespace Featherweight

namespace Bindings

/-- A write to a bound name replaces its value in place. -/
theorem put_of_mem {b : Bindings} {x : Name} (h : x ∈ names b) (v : Value) :
    ∃ before old after, b = before ++ (x, old) :: after ∧
      put x v b = before ++ (x, v) :: after := by
  induction b with
  | nil => simp [names] at h
  | cons e b ih =>
    obtain ⟨y, w⟩ := e
    by_cases hy : y = x
    · subst hy
      exact ⟨[], w, b, rfl, by simp [put]⟩
    · have hx : x ∈ names b := by simpa [names, Ne.symm hy] using h
      obtain ⟨before, old, after, hb, hput⟩ := ih hx
      exact ⟨(y, w) :: before, old, after, by simp [hb], by simp [put, hy, hput]⟩

end Bindings

namespace Heap

/-- On the way outward from scope `j` comes scope `t`, and no scope before it binds the name. So a
binding of the name in `t` is the one that is seen from `j`. -/
def Exposes (h : Heap) (j : Nat) (x : Name) (t : Nat) : Prop :=
  ∃ before after, h.chain j = before ++ t :: after ∧ ∀ k ∈ before, x ∉ (h.bindings k).names

/-- The scope that an assignment is for: the nearest on the chain that binds the name, or the
global one if none does. -/
inductive Receives (h : Heap) (i : Nat) (x : Name) : Nat → Prop
  | nearest {t} : h.Exposes i x t → x ∈ (h.bindings t).names → Receives h i x t
  | global : (∀ k ∈ h.chain i, x ∉ (h.bindings k).names) → Receives h i x (h.globalOf i)

section
variable {h : Heap}

theorem binds_iff {k : Nat} {x : Name} : h.binds k x = true ↔ x ∈ (h.bindings k).names :=
  Bindings.find?_isSome_iff

theorem find?_eq_none_iff {k : Nat} {x : Name} : h.find? k x = none ↔ x ∉ (h.bindings k).names :=
  Bindings.find?_eq_none_iff

theorem owner?_eq_some_iff {i t : Nat} {x : Name} :
    h.owner? i x = some t ↔ h.Exposes i x t ∧ x ∈ (h.bindings t).names := by
  simp only [owner?, List.find?_eq_some_iff_append, Exposes, binds_iff, Bool.not_eq_true']
  constructor
  · intro howner
    obtain ⟨ht, before, after, hchain, hbefore⟩ := howner
    exact ⟨⟨before, after, hchain, fun k hk => by simp [← binds_iff, hbefore k hk]⟩, ht⟩
  · intro hexposed
    obtain ⟨⟨before, after, hchain, hbefore⟩, ht⟩ := hexposed
    exact ⟨ht, before, after, hchain, fun k hk => by simpa [← binds_iff] using hbefore k hk⟩

theorem owner?_eq_none_iff {i : Nat} {x : Name} :
    h.owner? i x = none ↔ ∀ k ∈ h.chain i, x ∉ (h.bindings k).names := by
  simp [owner?, List.find?_eq_none, binds_iff]

/-- There is one scope that an assignment is for, and that is where it goes. -/
theorem receives_iff {i t : Nat} {x : Name} : h.Receives i x t ↔ t = h.target i x := by
  constructor
  · intro ht
    cases ht with
    | nearest hexposes hx => rw [target, owner?_eq_some_iff.2 ⟨hexposes, hx⟩, Option.getD_some]
    | global hnone => rw [target, owner?_eq_none_iff.2 hnone, Option.getD_none]
  · intro ht
    subst ht
    rw [target]
    cases ho : h.owner? i x with
    | some t =>
      obtain ⟨hexposes, hx⟩ := owner?_eq_some_iff.1 ho
      exact .nearest hexposes hx
    | none => exact .global (owner?_eq_none_iff.1 ho)

theorem Ordered.globalOf_mem_chain (ho : h.Ordered) {i : Nat} (hi : i < h.size) :
    h.globalOf i ∈ h.chain i :=
  List.mem_of_find?_eq_some (ho.find?_isGlobal hi)

/-- What is written for a scope is seen from it. -/
theorem Receives.exposes (ho : h.Ordered) {i t : Nat} (hi : i < h.size) {x : Name}
    (ht : h.Receives i x t) : h.Exposes i x t := by
  cases ht with
  | nearest hexposes _ => exact hexposes
  | global hnone =>
    obtain ⟨before, after, hchain⟩ := List.append_of_mem (ho.globalOf_mem_chain hi)
    exact ⟨before, after, hchain, fun k hk => hnone k (by simp [hchain, hk])⟩

end

section
variable {h : Heap} {t : Nat} (ht : t < h.size)
include ht

theorem find?_put (k : Nat) (x y : Name) (v : Value) :
    (h.put t x v).find? k y = if k = t ∧ x = y then some v else h.find? k y := by
  by_cases hk : k = t
  · subst hk
    simp [find?, bindings_put_self ht, Bindings.find?_put]
  · simp [find?, bindings_put_ne (Ne.symm hk), hk]

/-- After a write to an exposed scope, the name is found there. -/
theorem Exposes.owner?_put {j : Nat} {x : Name} (hj : h.Exposes j x t) (v : Value) :
    (h.put t x v).owner? j x = some t := by
  obtain ⟨before, after, hchain, hbefore⟩ := hj
  rw [owner?, chain_put, hchain]
  clear hchain
  induction before with
  | nil => simp [binds, find?_put ht]
  | cons k before ih =>
    obtain ⟨hk, hbefore⟩ := List.forall_mem_cons.1 hbefore
    by_cases hkt : k = t
    · simp [binds, find?_put ht, hkt]
    · simpa [binds, find?_put ht, hkt, find?_eq_none_iff.2 hk] using ih hbefore

/-- The new value is seen where the written scope is exposed. -/
theorem Exposes.resolve_put {j : Nat} {x : Name} (hj : h.Exposes j x t) (v : Value) :
    (h.put t x v).resolve j x = v := by
  rw [resolve_eq_owner?, hj.owner?_put ht, Option.bind_some, find?_put ht, if_pos ⟨rfl, rfl⟩,
    Option.getD_some]

/-- Other names, and scopes that find the name before they come to the written scope or never come
to it, see what they saw before. -/
theorem resolve_put_of_not_exposes {j : Nat} {x y : Name} (hj : ¬ (y = x ∧ h.Exposes j x t))
    (v : Value) : (h.put t x v).resolve j y = h.resolve j y := by
  have hsame : ∀ ks : List Nat, ¬ (y = x ∧ ∃ before after, ks = before ++ t :: after ∧
      ∀ k ∈ before, x ∉ (h.bindings k).names) →
      ks.findSome? (fun k => (h.put t x v).find? k y) = ks.findSome? fun k => h.find? k y := by
    intro ks hks
    induction ks with
    | nil => rfl
    | cons k ks ih =>
      rw [List.findSome?_cons, List.findSome?_cons]
      have hk : (h.put t x v).find? k y = h.find? k y := by
        rw [find?_put ht, if_neg]
        intro ⟨hkt, hxy⟩
        exact hks ⟨hxy.symm, [], ks, by simp [hkt], by simp⟩
      rw [hk]
      cases hy : h.find? k y with
      | some w => rfl
      | none =>
        -- A scope that does not bind the name may stand before the written one.
        refine ih fun ⟨hyx, before, after, hsplit, hbefore⟩ => hks ⟨hyx, k :: before, after, ?_, ?_⟩
        · rw [hsplit, List.cons_append]
        · exact List.forall_mem_cons.2 ⟨hyx ▸ find?_eq_none_iff.1 hy, hbefore⟩
  rw [resolve, resolve, chain_put, hsame _ hj]

end

theorem put_put (h : Heap) (t : Nat) (x : Name) (v w : Value) :
    (h.put t x v).put t x w = h.put t x w := by
  refine ext_scope? fun j => ?_
  simp only [scope?_put]
  by_cases hj : t = j
  · cases h.scope? j <;> simp [hj, Bindings.put_put]
  · simp [hj]

/-- What a write of one name in one scope does: the scope keeps its place and its other bindings,
and a new name comes last. Lookups of that name change where the scope is exposed, and only
there. -/
structure Writes (h : Heap) (t : Nat) (x : Name) (v : Value) (h' : Heap) : Prop where
  others : ∀ j, j ≠ t → h'.scope? j = h.scope? j
  enclosing : h'.enclosing? t = h.enclosing? t
  replaced : x ∈ (h.bindings t).names → ∃ before old after,
    h.bindings t = before ++ (x, old) :: after ∧ h'.bindings t = before ++ (x, v) :: after
  appended : x ∉ (h.bindings t).names → h'.bindings t = h.bindings t ++ [(x, v)]
  seen : ∀ j, h.Exposes j x t → h'.resolve j x = v
  unseen : ∀ j y, ¬ (y = x ∧ h.Exposes j x t) → h'.resolve j y = h.resolve j y

theorem writes_put {h : Heap} {t : Nat} (ht : t < h.size) (x : Name) (v : Value) :
    h.Writes t x v (h.put t x v) where
  others j hj := by rw [scope?_put, if_neg (Ne.symm hj)]
  enclosing := enclosing?_put ..
  replaced hx := by
    rw [bindings_put_self ht]
    exact Bindings.put_of_mem hx v
  appended hx := by rw [bindings_put_self ht, Bindings.put_of_notMem hx]
  seen _ hj := hj.resolve_put ht v
  unseen _ _ hj := resolve_put_of_not_exposes ht hj v

section
variable {h : Heap} (hw : h.WellFormed) {i : Nat} (hi : i < h.size)
include hw hi

theorem WellFormed.target_lt_size (x : Name) : h.target i x < h.size := by
  have hc := (hw.confined h.closed_univ).closed
  exact mem_region_univ.1 (hc.target (mem_region_univ.2 hi) x)

/-- A second assignment goes to the same scope, which binds the name by then. -/
theorem WellFormed.target_assign (x : Name) (v : Value) :
    (h.assign i x v).target i x = h.target i x := by
  have hexposes : h.Exposes i x (h.target i x) := (receives_iff.2 rfl).exposes hw.ordered hi
  rw [target, assign, hexposes.owner?_put (hw.target_lt_size hi x) v, Option.getD_some]

theorem WellFormed.assign_assign (x : Name) (v w : Value) :
    (h.assign i x v).assign i x w = h.assign i x w := by
  rw [assign, hw.target_assign hi, assign, put_put, assign]

end

/-- An assignment goes to one scope, which is seen from where it is made: the nearest that binds the
name, or the global one if none does. There it writes the one name and nothing else; and all
scopes, wherever they are in the heap, see the value if they come to that scope first, and otherwise
what they saw. A second assignment leaves nothing of the first. -/
theorem assign_effect {h : Heap} (hw : h.WellFormed) {i : Nat} (hi : i < h.size) (x : Name)
    (v : Value) :
    (∃ t, h.Receives i x t) ∧
    (∀ t, h.Receives i x t → h.Exposes i x t ∧ h.Writes t x v (h.assign i x v)) ∧
    ∀ w, (h.assign i x v).assign i x w = h.assign i x w := by
  refine ⟨⟨_, receives_iff.2 rfl⟩, ?_, hw.assign_assign hi x v⟩
  intro t ht
  have hexposes := ht.exposes hw.ordered hi
  obtain rfl := receives_iff.1 ht
  exact ⟨hexposes, writes_put (hw.target_lt_size hi x) x v⟩

/-- A scope beside that of the counter does not see the counter's number, so an assignment to that
name goes past it and makes a global binding, which the counter does not see in turn. -/
theorem assign_beside_counter :
    counterBeside.Receives 2 "n" 0 ∧
    (counterBeside.assign 2 "n" (.int 5)).bindings 0 = counterBeside.bindings 0 ++ [("n", .int 5)] ∧
    (counterBeside.assign 2 "n" (.int 5)).resolve 2 "n" = .int 5 ∧
    (counterBeside.assign 2 "n" (.int 5)).resolve 1 "n" = .int 0 := by
  obtain ⟨-, heffect, -⟩ := assign_effect wellFormed_counterBeside (i := 2) (by decide) "n" (.int 5)
  have hreceives : counterBeside.Receives 2 "n" 0 := .global (by decide)
  obtain ⟨hexposes, hwrites⟩ := heffect 0 hreceives
  have hcounter : ¬ counterBeside.Exposes 1 "n" 0 := by
    intro ⟨before, after, hchain, hbefore⟩
    cases before with
    | nil =>
      have hhead : some 1 = some 0 := congrArg List.head? hchain
      cases hhead
    | cons k before =>
      have hhead : some 1 = some k := congrArg List.head? hchain
      cases hhead
      exact hbefore 1 (List.mem_cons_self ..) (by decide)
  refine ⟨hreceives, hwrites.appended (by decide), hwrites.seen 2 hexposes, ?_⟩
  rw [hwrites.unseen 1 "n" fun h => hcounter h.2]
  rfl

end Heap

end Featherweight
