import Mathlib.Data.List.Basic

/-! Forms: words, and groups of forms in brackets. The text of a form can be read from left to right
with a stack of the groups that are open, and so no two forms have the same text. -/
namespace Featherweight

inductive Bracket where
  | round
  | square

namespace Bracket

@[simp] def opening : Bracket → Char
  | round => '('
  | square => '['

@[simp] def closing : Bracket → Char
  | round => ')'
  | square => ']'

/-- What stands between the members of a group. -/
@[simp] def separator : Bracket → List Char
  | round => [' ']
  | square => [',', ' ']

end Bracket

inductive Form where
  | word (s : String)
  | group (b : Bracket) (members : List Form)

namespace Form

/-- The characters that end a word. -/
def delimiters : List Char := ['(', ')', '[', ']', ' ', ',']

/-- A text that can be told from what stands around it. -/
structure IsWord (s : String) : Prop where
  ne_empty : s ≠ ""
  chars : ∀ c ∈ s.toList, c ∉ delimiters

instance (s : String) : Decidable (IsWord s) :=
  decidable_of_iff (s ≠ "" ∧ s.toList.all (fun c => c ∉ delimiters) = true)
    ⟨fun h => ⟨h.1, by simpa using h.2⟩, fun h => ⟨h.ne_empty, by simpa using h.chars⟩⟩

/-- All words of the form are such texts. -/
inductive Spelled : Form → Prop
  | word {s} : IsWord s → Spelled (.word s)
  | group (b) {members} : (∀ f ∈ members, Spelled f) → Spelled (.group b members)

mutual

/-- The text of a form. -/
def chars : Form → List Char
  | word s => s.toList
  | group b members =>
    b.opening :: (List.intercalate b.separator (charsAll members) ++ [b.closing])

/-- The texts of several forms. -/
def charsAll : List Form → List (List Char)
  | [] => []
  | f :: fs => f.chars :: charsAll fs

end

theorem charsAll_eq_map (fs : List Form) : charsAll fs = fs.map chars := by
  induction fs with
  | nil => rfl
  | cons f fs ih => rw [charsAll, ih, List.map_cons]

/-- What was read so far: the word at the end, the members of the innermost open group before it,
and those of the groups around. -/
structure Reader where
  word : List Char
  members : List Form
  outer : List (List Form)

namespace Reader

def start : Reader := ⟨[], [], []⟩

/-- Ends the word, if there is one. -/
def flush (r : Reader) : Reader :=
  if r.word = [] then r else ⟨[], r.members ++ [.word (String.ofList r.word)], r.outer⟩

/-- Opens a group. -/
def push (r : Reader) : Reader := ⟨[], [], r.members :: r.outer⟩

/-- Closes the innermost group. -/
def pop (b : Bracket) : Reader → Reader
  | ⟨_, members, around :: outer⟩ => ⟨[], around ++ [.group b members], outer⟩
  | r => r

/-- Brackets and separators end words; any other character belongs to one. -/
def step (r : Reader) : Char → Reader
  | '(' | '[' => r.push
  | ')' => r.flush.pop .round
  | ']' => r.flush.pop .square
  | ' ' | ',' => r.flush
  | c => { r with word := r.word ++ [c] }

def run (r : Reader) (cs : List Char) : Reader := cs.foldl step r

theorem run_append (r : Reader) (cs ds : List Char) : r.run (cs ++ ds) = (r.run cs).run ds :=
  List.foldl_append

/-- So it does not matter whether one character stands between two members or two do. -/
theorem flush_flush (r : Reader) : r.flush.flush = r.flush := by
  by_cases h : r.word = [] <;> simp [flush, h]

theorem run_separator (r : Reader) (b : Bracket) : r.run b.separator = r.flush := by
  cases b with
  | round => rfl
  | square => exact r.flush_flush

theorem step_opening (r : Reader) (b : Bracket) : r.step b.opening = r.push := by
  cases b <;> rfl

theorem step_closing (r : Reader) (b : Bracket) : r.step b.closing = r.flush.pop b := by
  cases b <;> rfl

theorem step_of_notMem (r : Reader) {c : Char} (hc : c ∉ delimiters) :
    r.step c = { r with word := r.word ++ [c] } := by
  unfold step
  split <;> first | rfl | exact absurd (by decide) hc

theorem run_word (r : Reader) {cs : List Char} (hcs : ∀ c ∈ cs, c ∉ delimiters) :
    r.run cs = { r with word := r.word ++ cs } := by
  induction cs generalizing r with
  | nil => simp [run]
  | cons c cs ih =>
    obtain ⟨hc, hcs⟩ := List.forall_mem_cons.1 hcs
    rw [run, List.foldl_cons, step_of_notMem r hc]
    exact (ih _ hcs).trans (by simp)

end Reader

/-- From anywhere between two words, the text is read as the form. -/
def Reads (f : Form) : Prop :=
  ∀ members outer,
    (Reader.run ⟨[], members, outer⟩ f.chars).flush = ⟨[], members ++ [f], outer⟩

theorem run_intercalate (b : Bracket) {fs : List Form} (h : ∀ f ∈ fs, f.Reads)
    (members : List Form) (outer : List (List Form)) :
    (Reader.run ⟨[], members, outer⟩ (List.intercalate b.separator (charsAll fs))).flush =
      ⟨[], members ++ fs, outer⟩ := by
  induction fs generalizing members with
  | nil => simp [charsAll, Reader.run, Reader.flush]
  | cons f fs ih =>
    obtain ⟨hf, hfs⟩ := List.forall_mem_cons.1 h
    cases fs with
    | nil => simpa [charsAll] using hf members outer
    | cons g gs =>
      rw [charsAll, charsAll, List.intercalate_cons_cons, Reader.run_append, Reader.run_append,
        Reader.run_separator, hf]
      simpa [charsAll] using ih hfs (members ++ [f])

theorem Spelled.reads {f : Form} (h : f.Spelled) : f.Reads := by
  -- A form only adds a member to the group that is open, whatever the groups around it are.
  induction h with
  | @word s hs =>
    intro members outer
    have hne : s.toList ≠ [] := by simpa using hs.ne_empty
    rw [chars, Reader.run_word _ hs.chars]
    simp [Reader.flush, hne]
  | group b _ ih =>
    intro members outer
    rw [chars, Reader.run, List.foldl_cons, Reader.step_opening, ← Reader.run, Reader.run_append]
    show (Reader.step _ b.closing).flush = _
    rw [Reader.step_closing, Reader.push, run_intercalate b ih]
    simp [Reader.pop, Reader.flush]

/-- Reads a form from its text. -/
def read? (cs : List Char) : Option Form :=
  match (Reader.start.run cs).flush with
  | ⟨_, [f], []⟩ => some f
  | _ => none

/-- A form is read back from its text. -/
theorem Spelled.read?_chars {f : Form} (h : f.Spelled) : read? f.chars = some f := by
  rw [read?, Reader.start, h.reads]
  rfl

/-- The integer that decimal digits stand for, with a sign before them or without. -/
def decimal : List Char → Int
  | '-' :: digits => -(Nat.ofDigitChars 10 digits 0 : Int)
  | digits => Nat.ofDigitChars 10 digits 0

theorem toList_toString_ofNat (m : Nat) :
    (toString (Int.ofNat m)).toList = Nat.toDigits 10 m := by
  show m.repr.toList = _
  rw [Nat.repr_eq_ofList_toDigits, String.toList_ofList]

theorem toList_toString_negSucc (m : Nat) :
    (toString (Int.negSucc m)).toList = '-' :: Nat.toDigits 10 (m + 1) := by
  show ("-" ++ (m + 1).repr).toList = _
  rw [Nat.repr_eq_ofList_toDigits, String.toList_append, show "-".toList = ['-'] from rfl,
    String.toList_ofList, List.singleton_append]

theorem isDigit_of_mem_toDigits {m : Nat} {c : Char} (hc : c ∈ Nat.toDigits 10 m) :
    c.isDigit = true :=
  Nat.isDigit_of_mem_toDigits (by decide) (by decide) hc

theorem decimal_toString (n : Int) : decimal (toString n).toList = n := by
  cases n with
  | ofNat m =>
    rw [toList_toString_ofNat]
    unfold decimal
    split
    · next digits h =>
      have hsign : '-' ∈ Nat.toDigits 10 m := h ▸ List.mem_cons_self ..
      cases isDigit_of_mem_toDigits hsign
    · rw [Nat.ofDigitChars_ten_toDigits]
      rfl
  | negSucc m =>
    rw [toList_toString_negSucc, decimal, Nat.ofDigitChars_ten_toDigits]
    rfl

/-- Digits and signs end no word. -/
theorem isWord_of_toList {s : String} {cs : List Char} (hs : s.toList = cs) (hne : cs ≠ [])
    (hcs : ∀ c ∈ cs, c = '-' ∨ c.isDigit = true) : IsWord s := by
  subst hs
  refine ⟨by simpa using hne, fun c hc hd => ?_⟩
  have hall : delimiters.all (fun c => c ≠ '-' && !c.isDigit) = true := by decide
  have hchar := List.all_eq_true.1 hall c hd
  rcases hcs c hc with h | h <;> simp [h] at hchar

theorem isWord_toString (n : Int) : IsWord (toString n) := by
  cases n with
  | ofNat m =>
    exact isWord_of_toList (toList_toString_ofNat m) Nat.toDigits_ne_nil
      fun c hc => .inr (isDigit_of_mem_toDigits hc)
  | negSucc m =>
    exact isWord_of_toList (toList_toString_negSucc m) (List.cons_ne_nil _ _)
      (List.forall_mem_cons.2 ⟨.inl rfl, fun c hc => .inr (isDigit_of_mem_toDigits hc)⟩)

/-- The integer that a word is the text of. -/
def int? (s : String) : Option Int :=
  if toString (decimal s.toList) = s then some (decimal s.toList) else none

theorem int?_toString (n : Int) : int? (toString n) = some n := by
  rw [int?, decimal_toString, if_pos rfl]

theorem int?_eq_none_iff {s : String} : int? s = none ↔ ∀ n : Int, s ≠ toString n := by
  constructor
  · rintro h n rfl
    rw [int?_toString] at h
    cases h
  · exact fun h => if_neg fun hs => h _ hs.symm

end Form

end Featherweight
