import Featherweight.Expr.Render
import Featherweight.Proofs.Captured
import Featherweight.Proofs.Form
import Featherweight.Sample

/-! Programs can be read back from their texts, if they hold no closures, and no name in them looks
like something else. So no two such programs have the same text. -/
namespace Featherweight

/-! ## Plain names -/

/-- A name that a program shows as a word, and as none that stands for a value. -/
structure Name.Plain (x : Name) : Prop where
  word : Form.IsWord x
  ne_constant : x ≠ "true" ∧ x ≠ "false" ∧ x ≠ "undefined"
  ne_int : ∀ n : Int, x ≠ toString n

instance (x : Name) : Decidable x.Plain :=
  decidable_of_iff
    (Form.IsWord x ∧ (x ≠ "true" ∧ x ≠ "false" ∧ x ≠ "undefined") ∧ Form.int? x = none)
    ⟨fun ⟨hw, hc, hn⟩ => ⟨hw, hc, Form.int?_eq_none_iff.1 hn⟩,
      fun h => ⟨h.word, h.ne_constant, Form.int?_eq_none_iff.2 h.ne_int⟩⟩

mutual

/-- The names that are read, declared or assigned anywhere in a program, or are parameters. -/
def Expr.names : Expr → List Name
  | .literal _ => []
  | .var x => [x]
  | .print e => e.names
  | .binary _ l r => l.names ++ r.names
  | .cond c t e => c.names ++ t.names ++ e.names
  | .loop c b => c.names ++ b.names
  | .seq a b => a.names ++ b.names
  | .declare x e | .assign x e => x :: e.names
  | .function ps body => ps ++ body.names
  | .call f args => f.names ++ Expr.namesAll args

/-- The names in several programs. -/
def Expr.namesAll : List Expr → List Name
  | [] => []
  | e :: es => e.names ++ Expr.namesAll es

end

/-! ## From programs to forms -/

mutual

/-- The text of a program as a form. -/
def Expr.form : Expr → Form
  | .literal v => .word v.display
  | .var x => .word x
  | .print e => .group .round [.word "print", e.form]
  | .binary op l r => .group .round [.word op.symbol, l.form, r.form]
  | .cond c t e => .group .round [.word "if", c.form, t.form, e.form]
  | .loop c b => .group .round [.word "while", c.form, b.form]
  | .seq a b => .group .round [.word "seq", a.form, b.form]
  | .declare x e => .group .round [.word "var", .word x, e.form]
  | .assign x e => .group .round [.word "=", .word x, e.form]
  | .function ps body =>
    .group .round [.word "function", .group .square (ps.map .word), body.form]
  | .call f args => .group .round [.word "call", f.form, .group .square (Expr.formAll args)]

def Expr.formAll : List Expr → List Form
  | [] => []
  | e :: es => e.form :: Expr.formAll es

end

/-! ## From forms to programs -/

namespace Form

/-- The program that a word is: a constant that it is the text of, or else a variable. -/
def ofWord (s : String) : Expr :=
  match int? s with
  | some n => .literal (.int n)
  | none =>
    if s = "true" then .literal (.bool true)
    else if s = "false" then .literal (.bool false)
    else if s = "undefined" then .literal .undefined
    else .var s

/-- The word of a form that is one. -/
def word? : Form → Option String
  | .word s => some s
  | .group .. => none

mutual

/-- The program that a form is. -/
def program? : Form → Option Expr
  | .word s => some (ofWord s)
  | .group .round [.word "print", e] => e.program?.map .print
  | .group .round [.word "if", c, t, e] => do
    return .cond (← c.program?) (← t.program?) (← e.program?)
  | .group .round [.word "while", c, b] => do return .loop (← c.program?) (← b.program?)
  | .group .round [.word "seq", a, b] => do return .seq (← a.program?) (← b.program?)
  | .group .round [.word "var", .word x, e] => e.program?.map (.declare x)
  | .group .round [.word "=", .word x, e] => e.program?.map (.assign x)
  | .group .round [.word "function", .group .square ps, body] => do
    return .function (← ps.mapM word?) (← body.program?)
  | .group .round [.word "call", f, .group .square args] => do
    return .call (← f.program?) (← programs? args)
  | .group .round [.word op, l, r] => do
    return .binary (← Operator.ofSymbol? op) (← l.program?) (← r.program?)
  | _ => none

/-- The programs that several forms are. -/
def programs? : List Form → Option (List Expr)
  | [] => some []
  | f :: fs => do return (← f.program?) :: (← programs? fs)

end

theorem ofWord_display {v : Value} (hv : v.kind ≠ .closure) : ofWord v.display = .literal v := by
  cases v with
  | int n => rw [ofWord, Value.display, int?_toString]
  | bool b => cases b <;> rfl
  | undefined => rfl
  | closure => exact absurd rfl hv

theorem ofWord_name {x : Name} (hx : x.Plain) : ofWord x = .var x := by
  obtain ⟨htrue, hfalse, hundefined⟩ := hx.ne_constant
  simp only [ofWord, int?_eq_none_iff.2 hx.ne_int, if_neg htrue, if_neg hfalse, if_neg hundefined]

theorem mapM_word? (ps : List Name) : (ps.map Form.word).mapM word? = some ps := by
  induction ps with
  | nil => rfl
  | cons p ps ih => simp [word?, ih]

theorem symbol_notMem_keywords (op : Operator) :
    op.symbol ∉ ["while", "seq", "var", "=", "function", "call"] := by
  cases op <;> decide

theorem program?_binary (op : Operator) (l r : Form) :
    program? (.group .round [.word op.symbol, l, r]) =
      (do return .binary op (← l.program?) (← r.program?)) := by
  have hop := symbol_notMem_keywords op
  simp only [List.mem_cons, List.not_mem_nil, or_false, not_or] at hop
  rw [program?, Operator.ofSymbol?_symbol]
  · rfl
  all_goals grind

end Form

namespace Expr

theorem mem_namesAll {es : List Expr} {x : Name} :
    x ∈ namesAll es ↔ ∃ e ∈ es, x ∈ e.names := by
  induction es with
  | nil => simp [namesAll]
  | cons e es ih => simp [namesAll, ih]

theorem names_of_child {e d : Expr} (hd : d ∈ e.children) {x : Name} (hx : x ∈ d.names) :
    x ∈ e.names := by
  cases e with
  | literal | var | function => simp [children] at hd
  | call f args =>
    rcases List.mem_cons.1 hd with rfl | hd
    · exact List.mem_append_left _ hx
    · exact List.mem_append_right _ (mem_namesAll.2 ⟨d, hd, hx⟩)
  | _ =>
    simp only [children, List.mem_cons, List.not_mem_nil, or_false] at hd
    simp only [names, List.mem_append, List.mem_cons]
    grind

theorem programs?_formAll {es : List Expr} (h : ∀ e ∈ es, e.form.program? = some e) :
    Form.programs? (formAll es) = some es := by
  induction es with
  | nil => rfl
  | cons e es ih =>
    obtain ⟨he, hes⟩ := List.forall_mem_cons.1 h
    simp [formAll, Form.programs?, he, ih hes]

theorem formAll_eq_map (es : List Expr) : formAll es = es.map form := by
  induction es with
  | nil => rfl
  | cons e es ih => rw [formAll, ih, List.map_cons]

/-- The text of a program is the text of its form. -/
theorem chars_form (e : Expr) : e.form.chars = e.render.toList := by
  induction e using induction_children with
  | h e ih ihbody =>
    cases e with
    | literal | var => rfl
    | function ps body =>
      have hnames : Form.charsAll (ps.map .word) = ps.map String.toList := by
        rw [Form.charsAll_eq_map, List.map_map]
        rfl
      simp [form, render, Form.chars, Form.charsAll, ihbody ps body rfl, hnames, commaSeparated,
        String.toList_intercalate]
    | call f args =>
      obtain ⟨hf, hargs⟩ := List.forall_mem_cons.1 ih
      have htexts : Form.charsAll (formAll args) = (renderAll args).map String.toList := by
        rw [Form.charsAll_eq_map, formAll_eq_map, renderAll_eq_map, List.map_map, List.map_map]
        exact List.map_congr_left hargs
      simp [form, render, Form.chars, Form.charsAll, hf, htexts, commaSeparated,
        String.toList_intercalate]
    | _ => simp_all [children, form, render, Form.chars, Form.charsAll]

/-! ## Legible programs -/

/-- A program whose text can be read back: it holds no closures, and its names are plain. -/
structure Legible (e : Expr) : Prop where
  closureFree : e.ClosureFree
  plain : ∀ x ∈ e.names, x.Plain

theorem Legible.of_subset {e d : Expr} (h : e.Legible) (hc : ∀ j ∈ d.captured, j ∈ e.captured)
    (hn : ∀ x ∈ d.names, x ∈ e.names) : d.Legible := by
  refine ⟨List.eq_nil_iff_forall_not_mem.2 fun j hj => ?_, fun x hx => h.plain x (hn x hx)⟩
  have hcaptured : j ∈ e.captured := hc j hj
  rw [h.closureFree] at hcaptured
  cases hcaptured

theorem Legible.child {e d : Expr} (h : e.Legible) (hd : d ∈ e.children) : d.Legible :=
  h.of_subset (fun _ hj => captured_of_child hd hj) (fun _ hx => names_of_child hd hx)

theorem Legible.body {ps : List Name} {b : Expr} (h : (function ps b).Legible) : b.Legible :=
  h.of_subset (fun _ hj => hj) (fun _ hx => List.mem_append_right _ hx)

theorem Legible.kind_ne {v : Value} (h : (literal v).Legible) : v.kind ≠ .closure := by
  intro hv
  cases v with
  | closure ps b i => cases h.closureFree
  | _ => cases hv

end Expr

theorem Value.isWord_display {v : Value} (hv : v.kind ≠ .closure) : Form.IsWord v.display := by
  cases v with
  | int n => exact Form.isWord_toString n
  | bool b => cases b <;> decide
  | undefined => decide
  | closure => exact absurd rfl hv

theorem Operator.isWord_symbol (op : Operator) : Form.IsWord op.symbol := by
  cases op <;> decide

theorem Form.spelled_round {k : String} (hk : IsWord k) {fs : List Form}
    (h : ∀ f ∈ fs, f.Spelled) : (group .round (.word k :: fs)).Spelled :=
  .group _ (List.forall_mem_cons.2 ⟨.word hk, h⟩)

namespace Expr

theorem Legible.spelled {e : Expr} (h : e.Legible) : e.form.Spelled := by
  induction e using induction_children with
  | h e ih ihbody =>
    have hforms : ∀ f ∈ e.children.map form, f.Spelled :=
      List.forall_mem_map.2 fun d hd => ih d hd (h.child hd)
    cases e with
    | literal v => exact .word (Value.isWord_display h.kind_ne)
    | var x => exact .word (h.plain x (List.mem_singleton_self x)).word
    | print | cond | loop | seq => exact Form.spelled_round (by decide) hforms
    | binary op l r => exact Form.spelled_round op.isWord_symbol hforms
    | declare x e | assign x e =>
      have hx : (Form.word x).Spelled := .word (h.plain x (List.mem_cons_self ..)).word
      exact Form.spelled_round (by decide) (List.forall_mem_cons.2 ⟨hx, hforms⟩)
    | function ps body =>
      have hps : (Form.group .square (ps.map .word)).Spelled :=
        .group _ <| List.forall_mem_map.2 fun p hp =>
          .word (h.plain p (List.mem_append_left _ hp)).word
      have hbody : body.form.Spelled := ihbody ps body rfl h.body
      exact Form.spelled_round (by decide) (by simpa using ⟨hps, hbody⟩)
    | call f args =>
      obtain ⟨hf, hargs⟩ := List.forall_mem_cons.1 hforms
      have hgroup : (Form.group .square (formAll args)).Spelled :=
        .group _ (formAll_eq_map args ▸ hargs)
      exact Form.spelled_round (by decide) (by simpa using ⟨hf, hgroup⟩)

/-- The form of a legible program is read as the program. -/
theorem Legible.program?_form {e : Expr} (h : e.Legible) : e.form.program? = some e := by
  induction e using induction_children with
  | h e ih ihbody =>
    have hforms : ∀ d ∈ e.children, d.form.program? = some d := fun d hd => ih d hd (h.child hd)
    cases e with
    | literal v => exact congrArg some (Form.ofWord_display h.kind_ne)
    | var x => exact congrArg some (Form.ofWord_name (h.plain x (List.mem_singleton_self x)))
    | binary op l r =>
      obtain ⟨hl, hr⟩ : l.form.program? = some l ∧ r.form.program? = some r := by
        simpa [children] using hforms
      simp [form, Form.program?_binary, hl, hr]
    | function ps body =>
      rw [form, Form.program?, Form.mapM_word?, ihbody ps body rfl h.body]
      rfl
    | call f args =>
      obtain ⟨hf, hargs⟩ := List.forall_mem_cons.1 hforms
      simp [form, Form.program?, hf, programs?_formAll hargs]
    | _ => simp_all [children, form, Form.program?]

/-! ## From texts to programs -/

/-- Reads a program from its text. -/
def read? (s : String) : Option Expr :=
  (Form.read? s.toList).bind Form.program?

/-- A legible program can be read back from its text. -/
theorem Legible.read?_render {e : Expr} (h : e.Legible) : read? e.render = some e := by
  rw [read?, ← e.chars_form, h.spelled.read?_chars, Option.bind_some, h.program?_form]

/-- The text determines the program: two programs without closure literals whose names are plain
have the same text only if they are the same. -/
theorem eq_of_text?_eq {e e' : Expr} (hc : e.ClosureFree) (hc' : e'.ClosureFree)
    (hn : ∀ x ∈ e.names, x.Plain) (hn' : ∀ x ∈ e'.names, x.Plain) {t : String}
    (h : e.text? = some t) (h' : e'.text? = some t) : e = e' := by
  have hread : read? t = some e := (text?_eq_some_iff.1 h).2 ▸ Legible.read?_render ⟨hc, hn⟩
  have hread' : read? t = some e' := (text?_eq_some_iff.1 h').2 ▸ Legible.read?_render ⟨hc', hn'⟩
  exact Option.some.inj (hread.symm.trans hread')

/-- A declaration and a variable one after another, put together in two ways. -/
theorem declareProgram_eq_of_text? :
    Sample.declareProgram.text? = some "(seq (var v 3) v)" ∧
      (sequence (.declare "v" (int 3)) [.var "v"]).text? = some "(seq (var v 3) v)" ∧
      Sample.declareProgram = sequence (.declare "v" (int 3)) [.var "v"] := by
  have h : Sample.declareProgram.text? = some "(seq (var v 3) v)" :=
    text?_eq_some_iff.2 ⟨by decide +kernel, by decide +kernel⟩
  have h' : (sequence (.declare "v" (int 3)) [.var "v"]).text? = some "(seq (var v 3) v)" :=
    text?_eq_some_iff.2 ⟨by decide +kernel, by decide +kernel⟩
  exact ⟨h, h', eq_of_text?_eq (by decide) (by decide) (by decide +kernel) (by decide +kernel) h h'⟩

end Expr

end Featherweight
