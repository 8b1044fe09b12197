import Featherweight.CommandLine.Run
import Featherweight.Proofs.Reset

/-! Samples in turn. All samples of one command run in one session, whose heap grows and whose
reporter remembers; still each ends as it does alone. A reset puts what earlier samples made out of
reach, and a sample that ends in the exit code zero leaves no error pending. -/
namespace Featherweight

namespace Session

/-- More fuel keeps the reply. -/
theorem run_mono {fuel fuel' : Nat} (hle : fuel ≤ fuel') {s : Session} {p : Expr}
    {r : Reply × Session} (h : s.run fuel p = some r) : s.run fuel' p = some r := by
  rw [run_eq] at h ⊢
  by_cases hdump : (!(dump s.flags p).complete) = true
  · rwa [if_pos hdump] at h ⊢
  by_cases hno : s.flags.noInterpret = true
  · rwa [if_neg hdump, if_pos hno] at h ⊢
  · rw [if_neg hdump, if_neg hno] at h ⊢
    obtain ⟨o, he, hr⟩ := Option.map_eq_some_iff.1 h
    rw [Expr.eval_below hle _ _ _ _ he, Option.map_some, hr]

/-! ## Sessions between two samples -/

/-- A session between two samples: nothing is pending, and the reporter follows the flags. -/
structure Ready (paint : String → String) (F : DebugFlags) (s : Session) : Prop where
  wellFormed : s.WellFormed
  flags : s.flags = F
  reporter : s.reporter = ⟨paint, F, false⟩

theorem ready_new (paint : String → String) (F : DebugFlags) : (new paint F).Ready paint F :=
  ⟨⟨Heap.wellFormed_fresh, Nat.zero_lt_one⟩, rfl, rfl⟩

section
variable {paint : String → String} {F : DebugFlags} {s u : Session} (hs : s.Ready paint F)
include hs

/-- After a reset, a session that is ready differs from a new one in the numbers of scopes only. -/
theorem Ready.abreast_reset :
    Abreast (fun _ => Heap.fresh.size) s.reset.heap {s.heap.size} (new paint F).reset.heap
      {Heap.fresh.size} s.reset (new paint F).reset where
  heap := hs.wellFormed.heap.newScope.abreast_newScope Heap.wellFormed_fresh.newScope rfl
  scope := by
    show s.heap.size ∈ (s.heap.newScope none).region (s.heap.newScope none).size {s.heap.size}
    rw [Heap.region_newScope]
    rfl
  scope_eq := by
    have hlt : s.heap.size < s.reset.heap.size := hs.wellFormed.reset.scope
    show Heap.fresh.size = Heap.pairing _ _ _ s.heap.size
    rw [Heap.pairing_of_lt hlt]
  flags := hs.flags.symm
  reporter := hs.reporter.symm

/-- What a run leaves pending is an error that could not be written. -/
theorem Ready.run {fuel : Nat} {p : Expr} (hp : p.ClosureFree) {reply : Reply}
    (h : s.reset.run fuel p = some (reply, u)) (hreply : reply.outcome ≠ .digitLimit) :
    u.Ready paint F := by
  have hruns : s.reset.Runs p (reply, u) := ⟨fuel, h⟩
  have hcaptured : ∀ j ∈ p.captured, j < s.reset.heap.size := by
    rw [hp]
    exact nofun
  have hwell := hs.wellFormed.reset.runs hcaptured hruns
  rcases runs_iff.1 hruns with ⟨-, hr⟩ | ⟨-, -, hr⟩ | ⟨-, -, result, t, -, hr⟩
  · cases hr
    exact absurd rfl hreply
  · cases hr
    exact ⟨hwell, hs.flags, by simp [informed, reset, hs.flags, hs.reporter]⟩
  · rcases result with (⟨cause, node⟩ | _) | v
    · rw [conclude_error] at hr
      cases hr
      cases hw : node.all Expr.isWritable with
      | true => exact ⟨hw ▸ hwell, hs.flags, by simp [Session.after, reset, hs.flags, hs.reporter]⟩
      | false => simp [hw] at hreply
    · cases hr
      exact absurd rfl hreply
    · rw [conclude_value] at hr
      cases hr
      exact ⟨hwell, hs.flags, by simp [Session.after, reset, hs.flags, hs.reporter]⟩

end

end Session

/-! ## One sample -/

namespace CommandLine

/-- How a command that runs the sample ends, from the reply to its program. -/
def Exit.ofReply (x : Sample) (reply : Reply) : Exit :=
  match reply.outcome with
  | .exit code => ⟨code, reply.stdout, reply.stderr⟩
  | .value v =>
    match v.text? with
    | some text => ⟨0, reply.stdout ++ valueLine x text, reply.stderr⟩
    | none => ⟨failureExit, reply.stdout, reply.stderr⟩
  | _ => ⟨failureExit, reply.stdout, reply.stderr⟩

theorem runSamples_cons (fuel : Nat) (s : Session) (x : Sample) (rest : List Sample) :
    runSamples fuel s (x :: rest) = (s.reset.run fuel x.program).bind fun r =>
      if (Exit.ofReply x r.1).code = 0 then
        (runSamples fuel r.2 rest).map
          (.after (Exit.ofReply x r.1).stdout (Exit.ofReply x r.1).stderr)
      else some (.ofReply x r.1) := by
  rw [runSamples]
  refine Option.bind_congr fun ⟨⟨outcome, stdout, stderr⟩, u⟩ _ => ?_
  cases outcome with
  | exit code => cases code <;> simp [Exit.ofReply]
  | value v => cases hv : v.text? <;> simp [Exit.ofReply, hv, failureExit]
  | done | digitLimit | unknownSample => simp [Exit.ofReply, failureExit]

/-- Nothing comes after the last sample. -/
theorem Exit.after_zero {e : Exit} (he : e.code = 0) :
    Exit.after e.stdout e.stderr ⟨0, "", ""⟩ = e := by
  obtain ⟨code, stdout, stderr⟩ := e
  obtain rfl : code = 0 := he
  simp [Exit.after]

theorem runSamples_singleton (fuel : Nat) (s : Session) (x : Sample) :
    runSamples fuel s [x] = (s.reset.run fuel x.program).map fun r => Exit.ofReply x r.1 := by
  rw [runSamples_cons]
  cases s.reset.run fuel x.program with
  | none => rfl
  | some r =>
    rw [Option.bind_some, Option.map_some]
    by_cases hcode : (Exit.ofReply x r.1).code = 0
    · rw [if_pos hcode, runSamples, Option.map_some, Exit.after_zero hcode]
    · rw [if_neg hcode]

/-- More fuel keeps the end. -/
theorem runSamples_mono {fuel fuel' : Nat} (hle : fuel ≤ fuel') {s : Session} {xs : List Sample}
    {exit : Exit} (h : runSamples fuel s xs = some exit) : runSamples fuel' s xs = some exit := by
  induction xs generalizing s exit with
  | nil => exact h
  | cons x xs ih =>
    rw [runSamples_cons] at h ⊢
    obtain ⟨r, hrun, hrest⟩ := Option.bind_eq_some_iff.1 h
    rw [Session.run_mono hle hrun, Option.bind_some]
    by_cases hcode : (Exit.ofReply x r.1).code = 0
    · rw [if_pos hcode] at hrest ⊢
      obtain ⟨next, hnext, hexit⟩ := Option.map_eq_some_iff.1 hrest
      rw [ih hnext, Option.map_some, hexit]
    · rwa [if_neg hcode] at hrest ⊢

/-! ## Ends in turn -/

namespace Exit

/-- The ends up to and including the first with an exit code other than zero. -/
def upToFailure (exits : List Exit) : List Exit :=
  exits.takeWhile (fun e => e.code = 0) ++ (exits.find? fun e => e.code ≠ 0).toList

/-- How several commands end that are run one after the other, until one ends in an exit code other
than zero: in that code, or in zero if there is none, after all that they write. -/
def inTurn (exits : List Exit) : Exit where
  code := ((exits.find? fun e => e.code ≠ 0).map code).getD 0
  stdout := String.join ((upToFailure exits).map stdout)
  stderr := String.join ((upToFailure exits).map stderr)

theorem inTurn_cons (e : Exit) (exits : List Exit) :
    inTurn (e :: exits) = if e.code = 0 then (inTurn exits).after e.stdout e.stderr else e := by
  by_cases he : e.code = 0
  · simp [inTurn, upToFailure, after, he]
  · simp [inTurn, upToFailure, he]

end Exit

/-! ## Samples in one session -/

/-- No text that is written about a reply shows the numbers of scopes. -/
theorem Exit.ofReply_congr (x : Sample) {f : Nat → Nat} {reply reply' : Reply}
    (ho : reply'.outcome = reply.outcome.renumber f) (hout : reply'.stdout = reply.stdout)
    (herr : reply'.stderr = reply.stderr) : ofReply x reply' = ofReply x reply := by
  unfold ofReply
  rw [ho, hout, herr]
  cases reply.outcome with
  | value v => simp only [Outcome.renumber, Value.text?_renumber]
  | _ => rfl

section
variable {paint : String → String} {F : DebugFlags} {fuel : Nat} {s : Session}
  (hs : s.Ready paint F) {x : Sample} (hx : x.program.ClosureFree)
include hs hx

/-- A sample ends as it does in a new session, whatever ran before it. -/
theorem runSamples_singleton_of_ready :
    runSamples fuel s [x] = runSamples fuel (.new paint F) [x] := by
  rw [runSamples_singleton, runSamples_singleton]
  have hcaptured : ∀ j ∈ x.program.captured, j ∈ s.reset.heap.region s.reset.heap.size
      {s.heap.size} := by
    rw [hx]
    exact nofun
  have hrel := hs.abreast_reset.run fuel hcaptured
  rw [Expr.renumber_of_closureFree hx] at hrel
  generalize s.reset.run fuel x.program = o,
    (Session.new paint F).reset.run fuel x.program = o' at hrel ⊢
  cases hrel with
  | none => rfl
  | some h => exact congrArg some (Exit.ofReply_congr x h.outcome h.stdout h.stderr).symm

/-- After a sample that ends in the exit code zero, the next one can run. -/
theorem ready_of_code_zero {r : Reply × Session} (hrun : s.reset.run fuel x.program = some r)
    (hcode : (Exit.ofReply x r.1).code = 0) : r.2.Ready paint F := by
  refine hs.run hx hrun fun hlimit => ?_
  simp [Exit.ofReply, hlimit, failureExit] at hcode

end

/-- Samples that run one after the other end as they do alone, up to the first that fails. -/
theorem runSamples_of_ready {paint : String → String} {F : DebugFlags} {fuel : Nat} {s : Session}
    (hs : s.Ready paint F) {xs : List Sample} {exits : List Exit}
    (h : List.Forall₂ (fun x exit => x.program.ClosureFree ∧
      runSamples fuel (.new paint F) [x] = some exit) xs exits) :
    runSamples fuel s xs = some (.inTurn exits) := by
  -- On the samples; every one finds another session, but one that is ready.
  induction h generalizing s with
  | nil => rfl
  | @cons x exit xs exits hx _ ih =>
    obtain ⟨hfree, hexit⟩ := hx
    rw [← runSamples_singleton_of_ready hs hfree, runSamples_singleton] at hexit
    obtain ⟨r, hrun, rfl⟩ := Option.map_eq_some_iff.1 hexit
    rw [runSamples_cons, hrun, Option.bind_some, Exit.inTurn_cons]
    by_cases hcode : (Exit.ofReply x r.1).code = 0
    · rw [if_pos hcode, if_pos hcode, ih (ready_of_code_zero hs hfree hrun hcode), Option.map_some]
    · rw [if_neg hcode, if_neg hcode]

/-- Fuel that suffices for each of the samples. -/
def sampleFuel : Nat := 17

theorem exists_runSamples_singleton (paint : String → String) (F : DebugFlags) {x : Sample}
    (hx : x ∈ Sample.all) : ∃ exit, runSamples sampleFuel (.new paint F) [x] = some exit := by
  have hall : ∀ x ∈ Sample.all,
      (x.program.eval sampleFuel 1 ⟨Heap.fresh.newScope none, ""⟩).isSome = true := by
    decide +kernel
  obtain ⟨o, ho⟩ := Option.isSome_iff_exists.1 (hall x hx)
  have hrun : ∃ r, (Session.new paint F).reset.run sampleFuel x.program = some r := by
    rw [Session.run_eq]
    split
    · exact ⟨_, rfl⟩
    split
    · exact ⟨_, rfl⟩
    · exact ⟨_, congrArg _ ho⟩
  obtain ⟨r, hr⟩ := hrun
  exact ⟨.ofReply x r.1, by rw [runSamples_singleton, hr, Option.map_some]⟩

/-! ## Samples by name -/

theorem findSamples_eq_ok {names : List String} {xs : List Sample}
    (h : List.Forall₂ (fun name x => Sample.find? name = some x) names xs) :
    findSamples names = .ok xs := by
  induction h with
  | nil => rfl
  | cons hx _ ih =>
    unfold findSamples at ih ⊢
    rw [List.mapM_cons, hx, ih]
    rfl

theorem findSamples_eq_error {names : List String} (h : ∃ name ∈ names, Sample.find? name = none) :
    ∃ name, findSamples names = .error (.unknownSample name) := by
  induction names with
  | nil => simp at h
  | cons name names ih =>
    cases hx : Sample.find? name with
    | none =>
      refine ⟨name, ?_⟩
      rw [findSamples, List.mapM_cons, hx]
      rfl
    | some x =>
      have hrest : ∃ name ∈ names, Sample.find? name = none := by simpa [hx] using h
      obtain ⟨name', hname'⟩ := ih hrest
      refine ⟨name', ?_⟩
      unfold findSamples at hname' ⊢
      rw [List.mapM_cons, hx, hname']
      rfl

/-! ## Commands -/

namespace Settings

/-- Settings that name samples and flags, and ask for nothing else. -/
def naming (names : List String) (flags : List DebugFlag) : Settings :=
  ⟨names, false, flags.map some, none⟩

/-- What the settings ask for comes to an end, and to this one only. -/
def Ends (paint : String → String) (settings : Settings) (r : Except SettingsError Exit) : Prop :=
  ∀ r', (∃ fuel, settings.run paint fuel = some r') ↔ r' = r

theorem run_naming (paint : String → String) (names : List String) (flags : List DebugFlag)
    (fuel : Nat) :
    (naming names flags).run paint fuel =
      match findSamples (if names.isEmpty then [defaultSample] else names) with
      | .error e => some (.ok (.ofUsageError e))
      | .ok xs => (runSamples fuel (.new paint (.ofList flags)) xs).map .ok := by
  have hcheck : (naming names flags).check = .ok (.ofList flags) := checkFlags_map_some flags
  rw [Settings.run, hcheck]
  rfl

theorem ends_of_runSamples {paint : String → String} (names : List String)
    {flags : List DebugFlag} {xs : List Sample}
    (hxs : findSamples (if names.isEmpty then [defaultSample] else names) = .ok xs) {fuel : Nat}
    {exit : Exit} (h : runSamples fuel (.new paint (.ofList flags)) xs = some exit) :
    (naming names flags).Ends paint (.ok exit) := by
  have hrun : ∀ fuel, (naming names flags).run paint fuel =
      (runSamples fuel (.new paint (.ofList flags)) xs).map .ok := by
    intro fuel
    rw [run_naming, hxs]
  intro r
  constructor
  · intro ⟨fuel', hr⟩
    rw [hrun] at hr
    obtain ⟨exit', h', rfl⟩ := Option.map_eq_some_iff.1 hr
    -- The fuel of both runs takes both to their ends.
    have hmax := runSamples_mono (Nat.le_max_left fuel fuel') h
    rw [runSamples_mono (Nat.le_max_right fuel fuel') h'] at hmax
    exact congrArg Except.ok (Option.some.inj hmax)
  · intro hr
    exact ⟨fuel, by rw [hrun, h, hr, Option.map_some]⟩

/-- Each sample that is named ends, by itself and in a new session. -/
theorem exists_exits (paint : String → String) (flags : List DebugFlag) {names : List String}
    (h : ∀ name ∈ names, Sample.find? name ≠ none) :
    ∃ xs exits, List.Forall₂ (fun name x => Sample.find? name = some x) names xs ∧
      List.Forall₂ (fun name exit => (naming [name] flags).Ends paint (.ok exit)) names exits ∧
      List.Forall₂ (fun x exit => x.program.ClosureFree ∧
        runSamples sampleFuel (.new paint (.ofList flags)) [x] = some exit) xs exits := by
  induction names with
  | nil => exact ⟨[], [], .nil, .nil, .nil⟩
  | cons name names ih =>
    obtain ⟨hname, hnames⟩ := List.forall_mem_cons.1 h
    obtain ⟨xs, exits, hfound, hends, hruns⟩ := ih hnames
    obtain ⟨x, hx⟩ := Option.ne_none_iff_exists'.1 hname
    obtain ⟨exit, hexit⟩ :=
      exists_runSamples_singleton paint (.ofList flags) (List.mem_of_find?_eq_some hx)
    have hone : findSamples [name] = .ok [x] := findSamples_eq_ok (.cons hx .nil)
    have hend : (naming [name] flags).Ends paint (.ok exit) :=
      ends_of_runSamples [name] hone hexit
    exact ⟨x :: xs, exit :: exits, .cons hx hfound, .cons hend hends,
      .cons ⟨Sample.closureFree hx, hexit⟩ hruns⟩

/-- Samples that are named on the command line do not influence each other. If there is a name that
no sample has, then the command ends in a mistake of usage without running anything. Otherwise it
ends as the commands for the single names do in turn, up to the first that fails. Of the flags only
the set matters. -/
theorem naming_ends (paint : String → String) (names : List String) (flags : List DebugFlag) :
    ((∃ name ∈ names, Sample.find? name = none) →
      ∃ text, ∀ fuel, (naming names flags).run paint fuel = some (.ok ⟨2, "", text⟩)) ∧
    ((∀ name ∈ names, Sample.find? name ≠ none) →
      ∃ exits, List.Forall₂ (fun name exit => (naming [name] flags).Ends paint (.ok exit))
          (if names.isEmpty then ["declare"] else names) exits ∧
        (naming names flags).Ends paint (.ok (.inTurn exits))) ∧
    ∀ flags' : List DebugFlag, (∀ flag, flag ∈ flags' ↔ flag ∈ flags) →
      ∀ fuel, (naming names flags').run paint fuel = (naming names flags).run paint fuel := by
  refine ⟨fun hunknown => ?_, fun hknown => ?_, fun flags' hflags fuel => ?_⟩
  · obtain ⟨name, hname⟩ := findSamples_eq_error hunknown
    have hne : names.isEmpty = false := by
      obtain ⟨name, hmem, -⟩ := hunknown
      cases names <;> simp at hmem ⊢
    refine ⟨(Exit.ofUsageError (.unknownSample name)).stderr, fun fuel => ?_⟩
    rw [run_naming, hne, if_neg (by simp), hname]
    rfl
  · have hall : ∀ name ∈ if names.isEmpty then [defaultSample] else names,
        Sample.find? name ≠ none := by
      cases names with
      | nil =>
        intro name hname
        obtain rfl := List.mem_singleton.1 hname
        exact Option.ne_none_iff_isSome.2 (by decide +kernel)
      | cons => exact hknown
    obtain ⟨xs, exits, hfound, hends, hruns⟩ := exists_exits paint flags hall
    have hrun := runSamples_of_ready (Session.ready_new paint _) hruns
    exact ⟨exits, hends, ends_of_runSamples names (findSamples_eq_ok hfound) hrun⟩
  · have hset : DebugFlags.ofList flags' = .ofList flags := by
      refine DebugFlags.ext_contains fun flag => ?_
      rw [DebugFlags.contains_ofList, DebugFlags.contains_ofList, decide_eq_decide]
      exact hflags flag
    rw [run_naming, run_naming, hset]

/-- How the counter ends by itself. -/
def counterEnd : Exit :=
  ⟨0, "1\n'var count = 1; var peek = function() \x7b count; \x7d; print(peek()); " ++
    "count = 2; peek();' evaluates to 2\n", ""⟩

/-- How the division by zero ends by itself, with errors reported without colour. -/
def divideByZeroEnd : Exit :=
  ⟨65, "", "[FwjsArithmeticError] Division by zero.\n    in: (/ 10 0)\n"⟩

/-- The first sample comes to a value, the second fails, and the third does not run. -/
theorem counter_divideByZero_declare_ends :
    (naming ["counter", "divide_by_zero", "declare"] [.reducedErrorReporting]).Ends Text.boldRed
      (.ok ⟨65, counterEnd.stdout, divideByZeroEnd.stderr⟩) := by
  obtain ⟨-, hknown, -⟩ :=
    naming_ends Text.boldRed ["counter", "divide_by_zero", "declare"] [.reducedErrorReporting]
  obtain ⟨exits, halone, hend⟩ := hknown (by decide +kernel)
  cases halone with
  | cons hcounter hrest =>
    cases hrest with
    | cons hdivide _ =>
      cases (hcounter (.ok counterEnd)).1 ⟨sampleFuel, by decide +kernel⟩
      cases (hdivide (.ok divideByZeroEnd)).1 ⟨sampleFuel, by decide +kernel⟩
      rw [Exit.inTurn_cons, Exit.inTurn_cons] at hend
      exact hend

end Settings

end CommandLine

end Featherweight
