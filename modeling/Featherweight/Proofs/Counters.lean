import Featherweight.Proofs.Assignment
import Featherweight.Proofs.Lookup
import Featherweight.Proofs.Nodes
import Mathlib.Logic.Function.Basic

/-! Counters side by side. Each call of the function that makes counters opens a scope for the
number of one more, which the closure that it gives back captures. Calls of a counter open scopes,
too, but they find the name bound in the captured scope only, so each call writes to the number of
its own counter. -/
namespace Featherweight

/-- In bindings that bind no name twice, a name stands for whatever it is bound to. -/
theorem Bindings.find?_of_mem {b : Bindings} (hd : b.names.Nodup) {x : Name} {v : Value}
    (h : (x, v) ∈ b) : b.find? x = some v := by
  induction b with
  | nil => cases h
  | cons e b ih =>
    obtain ⟨y, w⟩ := e
    obtain ⟨hy, hd⟩ := List.nodup_cons.1 hd
    rcases List.mem_cons.1 h with he | hmem
    · cases he
      exact if_pos rfl
    · have hx : x ∈ names b := List.mem_map_of_mem (f := Prod.fst) hmem
      have hyx : y ≠ x := fun hyx => hy (hyx ▸ hx)
      rw [find?, if_neg hyx, ih hd hmem]

namespace Expr

/-! ## The programs -/

/-- What a counter does when it is called. -/
def countUp : Expr :=
  .assign "n" (.binary .add (.var "n") (int 1))

/-- What the function does that makes counters. -/
def startCounter : Expr :=
  .seq (.declare "n" (int 0)) (.function [] countUp)

/-- Declares the function that makes counters, then counters that it has made. -/
def makeCounters (names : List Name) : List Expr :=
  .declare "make" (.function [] startCounter) ::
    names.map fun b => .declare b (.call (.var "make") [])

/-- Calls counters, which are given by their places. -/
def callCounters (names : List Name) (js : List (Fin names.length)) : List Expr :=
  js.map fun j => .call (.var names[j]) []

end Expr

open Featherweight.Expr (int InTurn countUp startCounter makeCounters callCounters)

namespace Heap

/-! ## The heap -/

def maker : Value := .closure [] startCounter 0

/-- The counter at a place. The global scope comes before those of the counters. -/
def counterAt (j : Nat) : Value := .closure [] countUp (j + 1)

/-- The function and the counters that it has made. -/
def counterBindings (names : List Name) : Bindings :=
  ("make", maker) :: names.mapIdx fun j b => (b, counterAt j)

theorem names_counterBindings (names : List Name) :
    (counterBindings names).names = "make" :: names := by
  rw [counterBindings, Bindings.names, List.map_cons]
  congr 1
  exact List.ext_getElem (by simp) fun j _ _ => by simp

theorem counterBindings_snoc (names : List Name) (b : Name) :
    counterBindings (names ++ [b]) = counterBindings names ++ [(b, counterAt names.length)] := by
  rw [counterBindings, List.mapIdx_concat]
  rfl

theorem find?_counterBindings {names : List Name} (hd : ("make" :: names).Nodup)
    (j : Fin names.length) : (counterBindings names).find? names[j] = some (counterAt j) := by
  refine Bindings.find?_of_mem ((names_counterBindings names).symm ▸ hd) ?_
  exact List.mem_cons_of_mem _ (List.mem_mapIdx.2 ⟨j, j.isLt, rfl⟩)

/-- The global scope binds the counters, and the scope of each has its number of calls so far. -/
structure Counts (h : Heap) (names : List Name) (count : Nat → Nat) : Prop where
  ordered : h.Ordered
  global : h.scope? 0 = some ⟨none, counterBindings names⟩
  number : ∀ j < names.length, h.scope? (j + 1) = some ⟨some 0, [("n", .int (count j))]⟩

section
variable {h : Heap} {names : List Name} {count : Nat → Nat} (hc : h.Counts names count)
include hc

theorem Counts.zero_lt_size : 0 < h.size :=
  lt_size_of_scope? hc.global

theorem Counts.lt_size {j : Nat} (hj : j < names.length) : j + 1 < h.size :=
  lt_size_of_scope? (hc.number j hj)

theorem Counts.resolve_global {x : Name} {v : Value}
    (hx : (counterBindings names).find? x = some v) : h.resolve 0 x = v := by
  rw [hc.ordered.resolve_eq hc.zero_lt_size, find?_of_scope? hc.global, hx, Option.getD_some]

/-- The name resolves to the counter's own number in the scope that the counter captures. -/
theorem Counts.resolve_number {j : Nat} (hj : j < names.length) :
    h.resolve (j + 1) "n" = .int (count j) := by
  rw [hc.ordered.resolve_eq (hc.lt_size hj), find?_of_scope? (hc.number j hj)]
  rfl

/-- An assignment in the scope that a counter captures writes to the counter's own number. -/
theorem Counts.target_number {j : Nat} (hj : j < names.length) : h.target (j + 1) "n" = j + 1 := by
  rw [hc.ordered.target_eq (hc.lt_size hj), binds, find?_of_scope? (hc.number j hj)]
  rfl

/-- The scope of a call makes no difference to the counters. -/
theorem Counts.newFrame {i : Nat} (hi : i < h.size) (b : Bindings) :
    (h.newFrame i b).Counts names count where
  ordered := hc.ordered.newFrame hi b
  global := by
    rw [scope?_newFrame, if_neg (Nat.ne_of_lt hc.zero_lt_size), hc.global]
  number j hj := by
    rw [scope?_newFrame, if_neg (Nat.ne_of_lt (hc.lt_size hj)), hc.number j hj]

theorem Counts.put_number {j : Nat} (hj : j < names.length) (m : Nat) :
    (h.put (j + 1) "n" (.int m)).Counts names (Function.update count j m) where
  ordered := hc.ordered.put _ _ _
  global := by
    rw [scope?_put, if_neg (Nat.succ_ne_zero j), hc.global]
  number k hk := by
    by_cases hjk : j = k
    · subst hjk
      rw [scope?_put, if_pos rfl, hc.number j hj, Function.update_self]
      rfl
    · have hne : j + 1 ≠ k + 1 := by omega
      rw [scope?_put, if_neg hne, hc.number k hk, Function.update_of_ne (Ne.symm hjk)]

/-- One more counter. Its scope is the next after those of the others. -/
theorem Counts.snoc {b : Name} (hb : b ∉ "make" :: names)
    (hnew : h.scope? (names.length + 1) = some ⟨some 0, [("n", .int (count names.length))]⟩) :
    (h.put 0 b (counterAt names.length)).Counts (names ++ [b]) count where
  ordered := hc.ordered.put _ _ _
  global := by
    have hfree : b ∉ (counterBindings names).names := (names_counterBindings names).symm ▸ hb
    rw [scope?_put, if_pos rfl, hc.global, Option.map_some, Bindings.put_of_notMem hfree,
      counterBindings_snoc]
  number j hj := by
    rw [scope?_put, if_neg (Nat.zero_ne_add_one j)]
    rw [List.length_append, List.length_singleton] at hj
    rcases Nat.lt_succ_iff_lt_or_eq.1 hj with hlt | rfl
    · exact hc.number j hlt
    · exact hnew

end

end Heap

open Featherweight.Heap (maker counterAt counterBindings Counts)

/-! ## The runs -/

/-- A call counts with those to come, or with those so far. -/
theorem add_count_cons {k : Nat} (count : Nat → Nat) (i j : Fin k) (js : List (Fin k)) :
    (count i + (j :: js).count i : Int) =
      Function.update count j (count j + 1) i + js.count i := by
  rw [List.count_cons]
  by_cases hij : j = i
  · subst hij
    rw [beq_self_eq_true, if_pos rfl, Function.update_self]
    omega
  · have hval : (i : Nat) ≠ j := fun hval => hij (Fin.ext hval.symm)
    simp [hij, Function.update_of_ne hval]

namespace Expr

section
variable {h : Heap} {names : List Name} {count : Nat → Nat} (out : String)

/-- A call of a counter comes to one more than its number, which is one more from then on. -/
theorem evaluates_counterCall (hc : h.Counts names count) (hd : ("make" :: names).Nodup)
    (j : Fin names.length) : ∃ h', (Expr.call (.var names[j]) []).Evaluates 0 ⟨h, out⟩
      (.ok (.int (count j + 1)), ⟨h', out⟩) ∧
      h'.Counts names (Function.update count j (count j + 1)) := by
  have hj := hc.lt_size j.isLt
  have hframe := hc.newFrame hj []
  have hcallee : (Expr.var names[j]).Evaluates 0 ⟨h, out⟩ (.ok (counterAt j), ⟨h, out⟩) :=
    evaluates_var_of_resolve (hc.resolve_global (Heap.find?_counterBindings hd j))
  have hnumber : (Expr.var "n").Evaluates h.size ⟨h.newFrame (j + 1) [], out⟩
      (.ok (.int (count j)), ⟨h.newFrame (j + 1) [], out⟩) := by
    refine evaluates_var_of_resolve ?_
    rw [hc.ordered.resolve_newFrame hj, hc.resolve_number j.isLt]
    rfl
  have hsum : (Expr.binary .add (.var "n") (int 1)).Evaluates h.size
      ⟨h.newFrame (j + 1) [], out⟩ (.ok (.int (count j + 1)), _) := hnumber.binary_int rfl
  have hbody := hsum.assign "n"
  rw [Heap.assign, hc.ordered.target_newFrame hj, hc.target_number j.isLt] at hbody
  exact ⟨_, hcallee.call .nil rfl List.nodup_nil hbody, hframe.put_number j.isLt _⟩

/-- Calls of the counters in any order. To the number that its counter had before, each adds the
calls that this counter has had since. -/
theorem inTurn_callCounters (hd : ("make" :: names).Nodup) (js : List (Fin names.length))
    (hc : h.Counts names count) : ∃ h' count', InTurn 0 (callCounters names js) ⟨h, out⟩
      (js.mapIdx fun t (j : Fin _) => .int (count j + (js.take (t + 1)).count j)) ⟨h', out⟩ ∧
      h'.Counts names count' := by
  -- On the calls to come; the first of them changes the number of its counter.
  induction js generalizing h count with
  | nil => exact ⟨h, count, .nil, hc⟩
  | cons j js ih =>
    obtain ⟨u, hcall, hu⟩ := evaluates_counterCall out hc hd j
    obtain ⟨h', count', hcalls, hc'⟩ := ih hu
    refine ⟨h', count', ?_, hc'⟩
    have hvalue : (count j + ([j] : List (Fin _)).count j : Int) = count j + 1 := by simp
    rw [List.mapIdx_cons]
    simp only [List.take_succ_cons, List.take_zero, hvalue, add_count_cons]
    exact .cons hcall hcalls

/-- Each call of the function makes a scope of its own, which the new counter keeps. -/
theorem evaluates_makerCall (hc : h.Counts names count) :
    (Expr.call (.var "make") []).Evaluates 0 ⟨h, out⟩
      (.ok (.closure [] countUp h.size), ⟨h.newFrame 0 [("n", .int 0)], out⟩) := by
  have hmaker : (counterBindings names).find? "make" = some maker := if_pos rfl
  have hcallee : (Expr.var "make").Evaluates 0 ⟨h, out⟩ (.ok maker, ⟨h, out⟩) :=
    evaluates_var_of_resolve (hc.resolve_global hmaker)
  have hfree : "n" ∉ ((h.newFrame 0 []).bindings h.size).names := by
    rw [Heap.bindings_newFrame_self]
    exact List.not_mem_nil
  have hdeclare := (evaluates_literal (.int 0) h.size ⟨h.newFrame 0 [], out⟩).declare hfree
  rw [Heap.put_newFrame] at hdeclare
  exact hcallee.call .nil rfl List.nodup_nil (hdeclare.seq (evaluates_function [] countUp _ _))

/-- One counter is made and declared, after some have been. -/
theorem evaluates_declareCounter {b : Name} (hc : h.Counts names fun _ => 0)
    (hsize : h.size = names.length + 1) (hb : b ∉ "make" :: names) :
    ∃ h', (Expr.declare b (.call (.var "make") [])).Evaluates 0 ⟨h, out⟩
        (.ok .undefined, ⟨h', out⟩) ∧
      h'.Counts (names ++ [b]) (fun _ => 0) ∧ h'.size = (names ++ [b]).length + 1 := by
  have hframe := hc.newFrame hc.zero_lt_size [("n", .int 0)]
  have hnew : b ∉ ((h.newFrame 0 [("n", .int 0)]).bindings 0).names := by
    rwa [Heap.bindings_of_scope? hframe.global, Heap.names_counterBindings]
  have hscope : (h.newFrame 0 [("n", .int 0)]).scope? (names.length + 1) =
      some ⟨some 0, [("n", .int (0 : Nat))]⟩ := by
    rw [Heap.scope?_newFrame, if_pos hsize.symm]
    rfl
  have hends := (evaluates_makerCall out hc).declare hnew
  rw [hsize] at hends
  refine ⟨_, hends, hframe.snoc hb hscope, ?_⟩
  rw [Heap.size_put, Heap.size_newFrame, hsize, List.length_append, List.length_singleton]

/-- Counters are made one after the other. -/
theorem inTurn_declareCounters (more : List Name) (hc : h.Counts names fun _ => 0)
    (hsize : h.size = names.length + 1) (hd : ("make" :: (names ++ more)).Nodup) :
    ∃ h', InTurn 0 (more.map fun b => .declare b (.call (.var "make") [])) ⟨h, out⟩
        (List.replicate more.length .undefined) ⟨h', out⟩ ∧
      h'.Counts (names ++ more) fun _ => 0 := by
  induction more generalizing h names with
  | nil =>
    rw [List.append_nil]
    exact ⟨h, .nil, hc⟩
  | cons b more ih =>
    rw [List.append_cons] at hd ⊢
    have hb : b ∉ "make" :: names := by
      have hprefix : ("make" :: names ++ [b]).Nodup :=
        hd.sublist (List.sublist_append_left ("make" :: (names ++ [b])) more)
      exact fun hmem => (List.nodup_append.1 hprefix).2.2 b hmem b (List.mem_singleton_self b) rfl
    obtain ⟨u, hdeclare, hu, husize⟩ := evaluates_declareCounter out hc hsize hb
    obtain ⟨h', hrest, hc'⟩ := ih hu husize hd
    exact ⟨h', .cons hdeclare hrest, hc'⟩

end

theorem counts_make : (Heap.fresh.put 0 "make" maker).Counts [] fun _ => 0 where
  ordered := Heap.wellFormed_fresh.ordered.put _ _ _
  global := rfl
  number j hj := absurd hj (Nat.not_lt_zero j)

theorem inTurn_makeCounters {names : List Name} (hd : ("make" :: names).Nodup) (out : String) :
    ∃ h, InTurn 0 (makeCounters names) ⟨.fresh, out⟩
        (List.replicate (names.length + 1) .undefined) ⟨h, out⟩ ∧ h.Counts names fun _ => 0 := by
  have hnew : "make" ∉ (Heap.fresh.bindings 0).names := List.not_mem_nil
  have hmake := (evaluates_function [] startCounter 0 ⟨.fresh, out⟩).declare hnew
  obtain ⟨h, hdeclares, hc⟩ := inTurn_declareCounters out names counts_make rfl hd
  exact ⟨h, .cons hmake hdeclares, hc⟩

/-- Counters that separate calls make, under distinct names, count separately: in a fresh global
scope, when any number of them has been made, calls of them in any order come to the numbers of
calls that each has had by then. In the end the global scope has got their names and no others. -/
theorem inTurn_counters {names : List Name} (hd : ("make" :: names).Nodup)
    (js : List (Fin names.length)) (out : String) :
    ∃ h, InTurn 0 (makeCounters names ++ callCounters names js) ⟨.fresh, out⟩
        (List.replicate (names.length + 1) .undefined ++
          js.mapIdx fun t (j : Fin names.length) => .int ((js.take (t + 1)).count j)) ⟨h, out⟩ ∧
      (h.bindings 0).names = "make" :: names := by
  obtain ⟨u, hmake, hu⟩ := inTurn_makeCounters hd out
  obtain ⟨h, count, hcalls, hc⟩ := inTurn_callCounters out hd js hu
  refine ⟨h, hmake.append ?_, ?_⟩
  · simpa only [Int.natCast_zero, Int.zero_add] using hcalls
  · rw [Heap.bindings_of_scope? hc.global, Heap.names_counterBindings]

end Expr

theorem twoCounters_inTurn : ("make" :: ["a", "b"]).Nodup ∧
    ∃ h, InTurn 0 (makeCounters ["a", "b"] ++ callCounters ["a", "b"] [0, 1, 0]) ⟨.fresh, ""⟩
        [.undefined, .undefined, .undefined, .int 1, .int 1, .int 2] ⟨h, ""⟩ ∧
      (h.bindings 0).names = ["make", "a", "b"] := by
  have hd : ("make" :: ["a", "b"]).Nodup := by decide
  exact ⟨hd, Expr.inTurn_counters hd [0, 1, 0] ""⟩

end Featherweight
