import Featherweight.Proofs.Call
import Featherweight.Proofs.WellFormed
import Mathlib.Data.List.Induction
import Mathlib.Data.List.Nodup

/-! Applications of closures. With as many arguments as parameters, and no parameter twice, the body
is evaluated in a new scope that binds the parameters to the arguments. A parameter that is there
twice stops this half-way; the scope that is made by then cannot be reached from anywhere. -/
namespace Featherweight

/-- Of the names in a list, `x` is the first that equals an earlier one, and these come
before it. -/
structure FirstRepeat (names before : List Name) (x : Name) : Prop where
  split : ∃ after, names = before ++ x :: after
  distinct : before.Nodup
  repeated : x ∈ before

theorem exists_firstRepeat {names : List Name} (h : ¬ names.Nodup) :
    ∃ before x, FirstRepeat names before x := by
  -- From the end, since what is before the name must be without repetition.
  induction names using List.reverseRecOn with
  | nil => exact absurd List.nodup_nil h
  | append_singleton names x ih =>
    by_cases hnames : names.Nodup
    · have hx : x ∈ names := by
        by_contra hx
        exact h (List.concat_eq_append ▸ List.Nodup.concat hx hnames)
      exact ⟨names, x, ⟨[], rfl⟩, hnames, hx⟩
    · obtain ⟨before, y, ⟨after, rfl⟩, hbefore, hy⟩ := ih hnames
      exact ⟨before, y, ⟨after ++ [x], by simp⟩, hbefore, hy⟩

namespace Bindings

/-- New names are declared one after another. -/
theorem declareAll_append (old done new : Bindings) (h : (names (old ++ done)).Nodup) :
    declareAll old (done ++ new) = declareAll (old ++ done) new := by
  induction done generalizing old with
  | nil => simp
  | cons e done ih =>
    obtain ⟨x, v⟩ := e
    have hx : x ∉ names old := by
      rw [names_append, List.nodup_append] at h
      exact fun hx => h.2.2 x hx x (by simp [names]) rfl
    rw [List.cons_append, declareAll, if_neg hx, ih _ (by simpa using h), List.append_assoc,
      List.singleton_append]

theorem declareAll_of_nodup {new : Bindings} (h : (names new).Nodup) :
    declareAll [] new = (new, none) := by
  have hall := declareAll_append [] new [] h
  rwa [List.append_nil] at hall

theorem declareAll_of_repeated {done : Bindings} (h : (names done).Nodup) {x : Name}
    (hx : x ∈ names done) (v : Value) (rest : Bindings) :
    declareAll [] (done ++ (x, v) :: rest) = (done, some x) := by
  rw [declareAll_append [] done _ h, List.nil_append, declareAll, if_pos hx]

theorem names_zip {ps : List Name} {vs : List Value} (h : ps.length ≤ vs.length) :
    names (ps.zip vs) = ps :=
  List.map_fst_zip h

/-- Parameters before a name take the first arguments, and the name takes the next. -/
theorem zip_split {before after : List Name} {x : Name} {vs : List Value}
    (h : vs.length = (before ++ x :: after).length) :
    before.length ≤ vs.length ∧
      ∃ v rest, (before ++ x :: after).zip vs = before.zip vs ++ (x, v) :: rest := by
  induction before generalizing vs with
  | nil =>
    cases vs with
    | nil => simp at h
    | cons v vs => exact ⟨Nat.zero_le _, v, after.zip vs, rfl⟩
  | cons y before ih =>
    cases vs with
    | nil => simp at h
    | cons u vs =>
      have hlength : vs.length = (before ++ x :: after).length := by simpa using h
      obtain ⟨hle, v, rest, hzip⟩ := ih hlength
      exact ⟨Nat.succ_le_succ hle, v, rest, by simp [hzip]⟩

theorem declareAll_of_firstRepeat {ps before : List Name} {x : Name} (h : FirstRepeat ps before x)
    {vs : List Value} (hl : vs.length = ps.length) :
    declareAll [] (ps.zip vs) = (before.zip vs, some x) := by
  obtain ⟨⟨after, rfl⟩, hbefore, hx⟩ := h
  obtain ⟨hle, v, rest, hzip⟩ := zip_split hl
  rw [hzip]
  exact declareAll_of_repeated (by rwa [names_zip hle]) (by rwa [names_zip hle]) v rest

end Bindings

namespace Heap

/-- No old scope leads to a new one. -/
theorem WellFormed.closed_push {h : Heap} (hw : h.WellFormed) (s : Scope) :
    (h.push s).Closed {k | k < h.size} := by
  refine ⟨fun i hi j hj => ?_, fun i hi e he j hj => ?_⟩
  · have hi : i < h.size := hi
    rw [enclosing?_push_ne (by omega)] at hj
    have hji := hw.ordered i j hj
    show j < h.size
    omega
  · have hi : i < h.size := hi
    rw [bindings_push_ne (by omega)] at he
    exact hw.captured i e he j hj

end Heap

namespace Action
variable {ps before : List Name} {body : Expr} {j : Nat} {x : Name} {vs : List Value} {s : State}
  {r : Except Failure Value × State}

/-- Applied to as many arguments as there are parameters, a closure declares the parameters, and its
body is evaluated if all can be declared. -/
theorem apply_apply (eval : Nat → Expr → Action Value) (body : Expr) (j : Nat)
    (hl : vs.length = ps.length) (s : State) :
    apply eval ps body j vs s =
      let s' := { s with heap := s.heap.newFrame j (Bindings.declareAll [] (ps.zip vs)).1 }
      match (Bindings.declareAll [] (ps.zip vs)).2 with
      | none => eval s.heap.size body s'
      | some x => some (.error (.error (.duplicate x) none), s') := by
  rw [apply, if_pos hl, enter_eq, bind_apply, openFrame_apply]
  cases (Bindings.declareAll [] (ps.zip vs)).2 <;> rfl

theorem applies_of_length_ne (hl : vs.length ≠ ps.length) : Applies ps body j vs s r ↔
    r = (.error (.error (.arity ps.length vs.length) none), s) := by
  simp only [Applies, apply, if_neg hl]
  rw [endsIn_of_action, fail, Option.some.injEq, eq_comm]

theorem applies_of_firstRepeat (hl : vs.length = ps.length) (h : FirstRepeat ps before x) :
    Applies ps body j vs s r ↔ r = (.error (.error (.duplicate x) none),
      { s with heap := s.heap.newFrame j (before.zip vs) }) := by
  simp only [Applies, EndsIn, apply_apply _ body j hl, Bindings.declareAll_of_firstRepeat h hl]
  rw [exists_const, Option.some.injEq, eq_comm]

theorem applies_of_nodup (hl : vs.length = ps.length) (h : ps.Nodup) : Applies ps body j vs s r ↔
    body.Evaluates s.heap.size { s with heap := s.heap.newFrame j (ps.zip vs) } r := by
  have hall : Bindings.declareAll [] (ps.zip vs) = (ps.zip vs, none) :=
    Bindings.declareAll_of_nodup (by rwa [Bindings.names_zip (Nat.le_of_eq hl.symm)])
  simp only [Applies, EndsIn, apply_apply _ body j hl, hall]
  rfl

end Action

open Featherweight.Action

/-- A closure is applied in a well-formed heap. With a wrong number of arguments it fails and leaves
the state as it is. Else, with a parameter that equals an earlier one, it fails at the first such
parameter: nothing is printed, no old scope changes, and none leads to the new scope, nor do the
arguments. Else its body is evaluated in a new scope inside the captured one, which binds just the
parameters to the arguments in order. -/
theorem Heap.WellFormed.applies_iff {h : Heap} (hw : h.WellFormed) (ps : List Name) (body : Expr)
    (j : Nat) (vs : List Value) (hv : ∀ v ∈ vs, ∀ k ∈ v.captured, k < h.size) (out : String) :
    (vs.length ≠ ps.length → ∀ r, Applies ps body j vs ⟨h, out⟩ r ↔
      r = (.error (.error (.arity ps.length vs.length) none), ⟨h, out⟩)) ∧
    (vs.length = ps.length → ¬ ps.Nodup → ∃ before x, FirstRepeat ps before x ∧
      ∃ h', (∀ r, Applies ps body j vs ⟨h, out⟩ r ↔
          r = (.error (.error (.duplicate x) none), ⟨h', out⟩)) ∧
        h' = h.newFrame j (before.zip vs) ∧ (∀ k < h.size, h'.scope? k = h.scope? k) ∧
        ∀ k, k < h.size ∨ (∃ v ∈ vs, k ∈ v.captured) → h.size ∉ h'.reachable [k]) ∧
    (vs.length = ps.length → ps.Nodup → ∀ r, Applies ps body j vs ⟨h, out⟩ r ↔
      body.Evaluates h.size ⟨h.newFrame j (ps.zip vs), out⟩ r) := by
  refine ⟨fun hl r => applies_of_length_ne hl, fun hl hps => ?_, fun hl hps r =>
    applies_of_nodup hl hps⟩
  obtain ⟨before, x, hfirst⟩ := exists_firstRepeat hps
  refine ⟨before, x, hfirst, _, fun r => applies_of_firstRepeat hl hfirst, rfl, ?_, ?_⟩
  · intro k hk
    rw [Heap.scope?_newFrame, if_neg (Nat.ne_of_lt hk)]
  · intro k hk hreach
    have hold : k < h.size := by
      rcases hk with hk | ⟨v, hmem, hk⟩
      · exact hk
      · exact hv v hmem k hk
    have hclosed := hw.closed_push ⟨some j, before.zip vs⟩
    have hself : h.size < h.size :=
      hclosed.reachable_subset (fun i hi => List.mem_singleton.1 hi ▸ hold) hreach
    exact absurd hself (Nat.lt_irrefl _)

/-- Of the parameters a, b, b and a, the third stops the application. Without an argument for it, a
parameter is not bound at all; with one, the body sees it and the scope of the counter. -/
theorem counter_applies :
    (Applies ["a", "b", "b", "a"] (.print (.var "a")) 1
        [.int 1, .closure [] (.var "n") 1, .bool true, .undefined] ⟨.counter, "before"⟩
        (.error (.error (.duplicate "b") none),
          ⟨Heap.counter.newFrame 1 [("a", .int 1), ("b", .closure [] (.var "n") 1)], "before"⟩) ∧
      2 ∉ (Heap.counter.newFrame 1
        [("a", .int 1), ("b", .closure [] (.var "n") 1)]).reachable [1]) ∧
    Applies ["x"] (.assign "n" (.var "x")) 1 [] ⟨.counter, ""⟩
      (.error (.error (.arity 1 0) none), ⟨.counter, ""⟩) ∧
    ∃ t, Applies ["x"] (.assign "n" (.var "x")) 1 [.int 5] ⟨.counter, ""⟩ (.ok (.int 5), t) ∧
      t.heap.bindings 1 = [("n", .int 5)] ∧ t.heap.bindings 2 = [("x", .int 5)] := by
  have hw := Heap.wellFormed_counter
  refine ⟨?_, ?_, ?_⟩
  · obtain ⟨-, hrepeated, -⟩ := hw.applies_iff ["a", "b", "b", "a"] (.print (.var "a")) 1
      [.int 1, .closure [] (.var "n") 1, .bool true, .undefined] (by decide) "before"
    obtain ⟨before, x, -, h', hends, -, -, hout⟩ := hrepeated rfl (by decide)
    have happlied := (hends (.error (.error (.duplicate "b") none),
      ⟨Heap.counter.newFrame 1 [("a", .int 1), ("b", .closure [] (.var "n") 1)], "before"⟩)).1
        ⟨0, rfl⟩
    cases happlied
    exact ⟨(hends _).2 rfl, hout 1 (.inl (by decide))⟩
  · obtain ⟨hlength, -, -⟩ := hw.applies_iff ["x"] (.assign "n" (.var "x")) 1 [] (by simp) ""
    exact (hlength (by decide) _).2 rfl
  · obtain ⟨-, -, hbody⟩ := hw.applies_iff ["x"] (.assign "n" (.var "x")) 1 [.int 5] (by decide) ""
    exact ⟨_, (hbody rfl (by decide) _).2 ⟨3, rfl⟩, rfl, rfl⟩

end Featherweight
