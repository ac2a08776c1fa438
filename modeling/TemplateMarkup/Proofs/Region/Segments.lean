import TemplateMarkup.Proofs.Region.Settled

/-!
Templates in segments. A template falls into characters, comments and blocks of code. Its segments form
a row if they do not interfere: no code is found in a comment, no comment and no code of another
directive in a block, and no at sign comes to open anything when comments, blocks and styles around it
are taken out. A row stays a row when they are taken out.
-/
namespace TemplateMarkup.Region

open Text

/-- A block has its directive, what comes before its brace, and what its braces enclose. -/
inductive Segment
  | char (c : Char)
  | comment (inside : Text)
  | block (directive before inside : Text)
deriving DecidableEq, Repr

namespace Segment

/-- The text of a block after its directive. -/
def body (before inside : Text) : Text := before ++ '\x7b' :: (inside ++ ['\x7d'])

def text : Segment → Text
  | char c => [c]
  | comment inside => "@*".toList ++ (inside ++ "*@".toList)
  | block d before inside => d ++ body before inside

def isComment : Segment → Bool
  | comment _ => true
  | _ => false

/-- The segment stays when the code of a directive is taken out. -/
def outlasts (d : Text) : Segment → Bool
  | block e _ _ => e != d
  | _ => true

def block? : Segment → Option (Text × Text)
  | block d _ inside => some (d, inside)
  | _ => none

end Segment

def textOf (ps : List Segment) : Text := ps.flatMap Segment.text

def blocksOf (ps : List Segment) : List (Text × Text) := ps.filterMap Segment.block?

def OpensComment (t : Text) : Prop :=
  ∃ after, t = "@*".toList ++ after ∧ (splitAt? "*@" after).isSome

def OpensCode (d t : Text) : Prop :=
  ∃ after, t = d ++ after ∧ endsWord after ∧ (braced? after).isSome

def Opens (t : Text) : Prop := OpensComment t ∨ ∃ d ∈ directives, OpensCode d t

/-- Nothing opens in a text with `t` after it. -/
def Silent (opens : Text → Prop) : (u t : Text) → Prop
  | [], _ => True
  | c :: u, t => ¬opens (c :: (u ++ t)) ∧ Silent opens u t

/-- What follows an at sign that opens nothing, whatever styles are taken out: what comes before the
first bracket stays, and nothing that may be left of the rest helps. -/
def Inert (after : Text) : Prop :=
  ∃ word rest, after = word ++ rest ∧ '<' ∉ word ∧
    ∀ more : Text, more.Sublist rest → ¬Opens ('@' :: (word ++ more))

/-- A property of the text of the segments, whichever comments and blocks are taken out. -/
def Always (P : Text → Prop) (ps : List Segment) : Prop :=
  ∀ keep : Segment → Bool, (∀ c, keep (.char c)) → P (textOf (ps.filter keep))

/-- Segments that do not interfere. A comment may mention a directive as long as no code is found there.
A block may hold code of its own directive. -/
inductive Row : List Segment → Prop where
  | nil : Row []
  | char {c : Char} {ps : List Segment} (inert : c = '@' → Always Inert ps) (later : Row ps) :
      Row (.char c :: ps)
  | comment {inside : Text} {ps : List Segment}
      (closed : splitAt? "*@" (inside ++ "*@".toList) = some (inside, []))
      (silent : ∀ d ∈ directives, Silent (OpensCode d) (inside ++ "*@".toList) (textOf ps))
      (later : Row ps) : Row (.comment inside :: ps)
  | block {d before inside : Text} {ps : List Segment} (member : d ∈ directives)
      (word : endsWord (before ++ ['\x7b'])) (clear : '\x7b' ∉ before)
      (closed : closeBrace 0 (inside ++ ['\x7d']) = some (inside, []))
      (comments : Always (Silent OpensComment (Segment.body before inside)) ps)
      (others : ∀ e ∈ directives, e ≠ d → Always (Silent (OpensCode e) (Segment.body before inside)) ps)
      (later : Row ps) : Row (.block d before inside :: ps)

variable {t rest : Text} {ps : List Segment}

@[simp] theorem textOf_cons (x : Segment) (ps : List Segment) : textOf (x :: ps) = x.text ++ textOf ps :=
  rfl

theorem textOf_chars (t : Text) : textOf (t.map .char) = t := by
  induction t with
  | nil => rfl
  | cons c t ih => rw [List.map_cons, textOf_cons, ih]; rfl

theorem chars_textOf (chars : ∀ x ∈ ps, ∃ c, x = .char c) : (textOf ps).map .char = ps := by
  induction ps with
  | nil => rfl
  | cons x ps ih =>
    obtain ⟨⟨c, rfl⟩, later⟩ := List.forall_mem_cons.mp chars
    rw [textOf_cons, List.map_append, ih later]
    rfl

section Silence

theorem OpensComment.sign (opens : OpensComment t) : ∃ tail, t = '@' :: tail := by
  obtain ⟨after, rfl, -⟩ := opens
  exact ⟨_, rfl⟩

theorem OpensCode.sign {d : Text} (member : d ∈ directives) (opens : OpensCode d t) :
    ∃ tail, t = '@' :: tail := by
  obtain ⟨after, rfl, -⟩ := opens
  obtain ⟨part, rfl, -⟩ := directive_once member
  exact ⟨_, rfl⟩

variable {opens : Text → Prop}

theorem silent_append {u v : Text} (first : Silent opens u (v ++ t)) (later : Silent opens v t) :
    Silent opens (u ++ v) t := by
  induction u with
  | nil => exact later
  | cons c u ih =>
    refine ⟨?_, ih first.2⟩
    have whole : u ++ v ++ t = u ++ (v ++ t) := List.append_assoc u v t
    exact whole ▸ first.1

theorem silent_plain {u : Text} (sign : ∀ t, opens t → ∃ tail, t = '@' :: tail) (plain : '@' ∉ u) :
    Silent opens u t := by
  induction u with
  | nil => trivial
  | cons c u ih =>
    rw [List.mem_cons, not_or] at plain
    refine ⟨fun opened => ?_, ih plain.2⟩
    obtain ⟨tail, split⟩ := sign _ opened
    exact plain.1 (List.cons.inj split).1.symm

end Silence

theorem Inert.shut (inert : Inert t) : ¬Opens ('@' :: t) := by
  obtain ⟨word, rest, rfl, -, shut⟩ := inert
  exact shut rest (List.Sublist.refl rest)

theorem not_opens_cons {c : Char} (inert : c = '@' → Inert t) : ¬Opens (c :: t) := by
  intro opens
  have sign : ∃ tail, c :: t = '@' :: tail := by
    rcases opens with comment | ⟨d, member, code⟩
    · exact comment.sign
    · exact code.sign member
  obtain ⟨tail, split⟩ := sign
  obtain rfl := (List.cons.inj split).1
  exact (inert rfl).shut opens

/-- Taking out pieces that begin with a bracket leaves a run of other characters. -/
theorem cut_word {α : Type} {describes : α → Nat → Text → Prop} {n : Nat} {xs : List α}
    (marked : ∀ x n piece, describes x n piece → ∃ tail, piece = '<' :: tail)
    (word : Text) (plain : '<' ∉ word) (cut : Cut describes n (word ++ t) xs rest) :
    ∃ m kept, rest = word ++ kept ∧ Cut describes m t xs kept := by
  induction word generalizing n rest with
  | nil => exact ⟨n, rest, rfl, cut⟩
  | cons c word ih =>
    rw [List.mem_cons, not_or] at plain
    generalize whole : c :: word ++ t = u at cut
    cases cut with
    | nil => cases whole
    | keep later =>
      obtain ⟨rfl, rfl⟩ := List.cons.inj whole
      obtain ⟨m, kept, rfl, cut⟩ := ih plain.2 later
      exact ⟨m, kept, rfl, cut⟩
    | take filled described later =>
      obtain ⟨tail, rfl⟩ := marked _ _ _ described
      exact absurd (List.cons.inj whole).1.symm plain.1

theorem IsStyle.marked {piece : Text} {r : Region} {n : Nat} (style : IsStyle r n piece) :
    ∃ tail, piece = '<' :: tail := by
  obtain ⟨tag, inside, close, rfl, -⟩ := style
  exact ⟨_, rfl⟩

theorem Inert.cut {n : Nat} {xs : List Region} (inert : Inert t) (cut : Cut IsStyle n t xs rest) :
    Inert rest := by
  obtain ⟨word, tail, rfl, plain, shut⟩ := inert
  obtain ⟨m, kept, rfl, later⟩ := cut_word (fun _ _ _ style => style.marked) word plain cut
  exact ⟨word, kept, rfl, plain, fun more sub => shut more (sub.trans (cut_sublist later))⟩

section Segments

variable {P : Text → Prop}

theorem Always.whole (always : Always P ps) : P (textOf ps) := by
  simpa using always (fun _ => true) fun _ => rfl

theorem Always.filter {keep : Segment → Bool} (always : Always P ps) (chars : ∀ c, keep (.char c)) :
    Always P (ps.filter keep) := by
  intro more kept
  rw [List.filter_filter]
  exact always _ fun c => by simp [chars, kept]

theorem always_chars (here : P t) : Always P (t.map .char) := by
  intro keep chars
  have all : (t.map Segment.char).filter keep = t.map .char :=
    List.filter_eq_self.mpr fun x member => by
      obtain ⟨c, -, rfl⟩ := List.mem_map.mp member
      exact chars c
  rw [all, textOf_chars]
  exact here

/-- Rows stay rows when comments and blocks are taken out, comments no later than blocks. -/
theorem row_filter {keep : Segment → Bool} (row : Row ps) (chars : ∀ c, keep (.char c))
    (comments : ∀ x ∈ ps, x.isComment → keep x = false) : Row (ps.filter keep) := by
  induction row with
  | nil => exact Row.nil
  | char inert later ih =>
    rw [List.filter_cons_of_pos (chars _)]
    exact Row.char (fun sign => (inert sign).filter chars)
      (ih (List.forall_mem_cons.mp comments).2)
  | comment closed silent later ih =>
    obtain ⟨gone, comments⟩ := List.forall_mem_cons.mp comments
    rw [List.filter_cons_of_neg (by simp [gone rfl])]
    exact ih comments
  | @block d before inside ps member word clear closed quiet others later ih =>
    have later := ih (List.forall_mem_cons.mp comments).2
    cases kept : keep (.block d before inside) with
    | false =>
      rw [List.filter_cons_of_neg (by simp [kept])]
      exact later
    | true =>
      rw [List.filter_cons_of_pos kept]
      exact Row.block member word clear closed (quiet.filter chars)
        (fun e known different => (others e known different).filter chars) later

theorem row_chars_cons {c : Char} (row : Row ((c :: t).map .char)) :
    (c = '@' → Inert t) ∧ Row (t.map .char) := by
  cases row with
  | char inert later =>
    refine ⟨fun sign => ?_, later⟩
    have whole := (inert sign).whole
    rwa [textOf_chars] at whole

theorem row_chars_drop {u : Text} (row : Row ((u ++ t).map .char)) : Row (t.map .char) := by
  induction u with
  | nil => exact row
  | cons c u ih => exact ih (row_chars_cons row).2

theorem row_styles {n : Nat} {xs : List Region} (row : Row (t.map .char))
    (cut : Cut IsStyle n t xs rest) : Row (rest.map .char) := by
  induction cut with
  | nil => exact row
  | keep later ih =>
    obtain ⟨inert, row⟩ := row_chars_cons row
    exact Row.char (fun sign => always_chars ((inert sign).cut later)) (ih row)
  | take filled described later ih => exact ih (row_chars_drop row)

end Segments

section Comments

theorem directive_not_comment {d after more : Text} (member : d ∈ directives) :
    d ++ after ≠ "@*".toList ++ more := by
  have unlike : ∀ d ∈ directives, d.take 2 ≠ "@*".toList ∧ 2 ≤ d.length := by decide
  obtain ⟨head, long⟩ := unlike d member
  intro same
  have heads := congrArg (List.take 2) same
  rw [List.take_append_of_le_length long] at heads
  exact head heads

/-- Text in which no comment opens is kept. -/
theorem removeDelimitedFrom_silent {u : Text} (silent : Silent OpensComment u t)
    (later : ∀ fuel, t.length < fuel → removeDelimitedFrom "@*" "*@" fuel t = rest) (fuel : Nat)
    (enough : (u ++ t).length < fuel) :
    removeDelimitedFrom "@*" "*@" fuel (u ++ t) = u ++ rest := by
  induction u generalizing fuel with
  | nil => exact later fuel enough
  | cons c u ih =>
    obtain ⟨fuel, rfl⟩ : ∃ k, fuel = k + 1 := ⟨fuel - 1, by omega⟩
    have none : (stripLead? "@*" (c :: (u ++ t))).bind (splitAt? "*@") = none := by
      refine Option.eq_none_iff_forall_ne_some.mpr fun found here => silent.1 ?_
      obtain ⟨after, strip, split⟩ := Option.bind_eq_some_iff.mp here
      exact ⟨after, stripLead?_eq_some_iff.mp strip, by rw [split]; rfl⟩
    rw [List.cons_append, removeDelimitedFrom, none]
    exact congrArg (c :: ·) (ih silent.2 fuel (by simpa using enough))

theorem row_comments (row : Row ps) (fuel : Nat) (enough : (textOf ps).length < fuel) :
    removeDelimitedFrom "@*" "*@" fuel (textOf ps) = textOf (ps.filter fun x => !x.isComment) := by
  induction row generalizing fuel with
  | nil =>
    obtain ⟨fuel, rfl⟩ : ∃ k, fuel = k + 1 := ⟨fuel - 1, by omega⟩
    rfl
  | @char c ps inert later ih =>
    have silent : Silent OpensComment [c] (textOf ps) :=
      ⟨fun opens => not_opens_cons (fun sign => (inert sign).whole) (Or.inl opens), trivial⟩
    exact removeDelimitedFrom_silent silent ih fuel enough
  | @comment inside ps closed silent later ih =>
    obtain ⟨fuel, rfl⟩ : ∃ k, fuel = k + 1 := ⟨fuel - 1, by omega⟩
    have split := splitAt?_append (textOf ps) closed
    have text : textOf (.comment inside :: ps) =
        '@' :: '*' :: (inside ++ "*@".toList ++ textOf ps) := rfl
    have strip : stripLead? "@*" (textOf (.comment inside :: ps)) =
        some (inside ++ "*@".toList ++ textOf ps) := stripLead?_eq_some_iff.mpr text
    rw [text] at strip enough ⊢
    rw [removeDelimitedFrom, strip, Option.bind_some, split]
    exact ih fuel (by simp only [List.length_cons, List.length_append] at enough; omega)
  | @block d before inside ps member word clear closed comments others later ih =>
    have silent : Silent OpensComment (d ++ Segment.body before inside) (textOf ps) := by
      refine silent_append ?_ comments.whole
      obtain ⟨part, rfl, once⟩ := directive_once member
      refine ⟨?_, silent_plain (fun _ => OpensComment.sign) once⟩
      rintro ⟨after, split, -⟩
      exact directive_not_comment member split
    exact removeDelimitedFrom_silent silent ih fuel enough

end Comments

end TemplateMarkup.Region
