import TemplateMarkup.Proofs.Region.Segments

/-!
Code that is found and code that is taken out. The search for code goes over a template as it stands,
once for each directive. The removal takes out comments first, then the code of one directive after the
other, then styles, and starts again with what is left. The two agree on a template whose segments form
a row, and differ on others.
-/
namespace TemplateMarkup.Region

open Text

/-- The code that one pass takes out, directive by directive. -/
def codeOfPass : List Text → Text → List Region
  | [], _ => []
  | d :: ds, t => withMarker d t ++ codeOfPass ds (withoutCode t d)

def removedCodeFrom : (fuel : Nat) → Text → List Text
  | 0, _ => []
  | fuel + 1, t =>
    (codeOfPass directives (removeDelimited "@*" "*@" t)).map (·.content) ++
      if removeOnce t = t then [] else removedCodeFrom fuel (removeOnce t)

def removedCode (t : Text) : List Text := removedCodeFrom (t.length + 1) t

/-- A text in which blocks of code stand in a row, each given by its directive and the text between its
braces. -/
def CodeRow (t : Text) (blocks : List (Text × Text)) : Prop :=
  ∃ ps, Row ps ∧ textOf ps = t ∧ blocksOf ps = blocks

variable {t : Text} {ps : List Segment}

section Search

/-- The regions of code after a directive, in a text that stands at the offset `n`; those that start
before `resume` are left out. -/
def codeFrom (d : Text) (resume n : Nat) (t : Text) : List Region :=
  ofMarkers d resume ((everyOccurrence d n t).filter fun m => endsWord m.2)

theorem withMarker_eq_codeFrom {d : Text} (member : d ∈ directives) (t : Text) :
    withMarker d t = codeFrom d 0 0 t := by
  obtain ⟨part, rfl, once⟩ := directive_once member
  have every : occurrences ('@' :: part) t = everyOccurrence ('@' :: part) 0 t :=
    occurrencesFrom_eq_every once 0 0 t (by simp)
  rw [withMarker, markers, every]
  rfl

theorem codeFrom_cons {d : Text} {resume n : Nat} {c : Char} (shut : ¬OpensCode d (c :: t)) :
    codeFrom d resume n (c :: t) = codeFrom d resume (n + c.utf8Size) t := by
  rw [codeFrom, everyOccurrence, List.filter_append]
  cases strip : stripLead? d (c :: t) with
  | none => rfl
  | some after =>
    cases word : endsWord after with
    | false => simp [word, codeFrom]
    | true =>
      have none : braced? after = none := Option.not_isSome_iff_eq_none.mp fun braces =>
        shut ⟨after, stripLead?_eq_some_iff.mp strip, word, braces⟩
      simp [word, codeFrom, ofMarkers, ofMarker?, none]

theorem codeFrom_silent {d u : Text} {resume n : Nat} (silent : Silent (OpensCode d) u t) :
    codeFrom d resume n (u ++ t) = codeFrom d resume (n + bytes u) t := by
  induction u generalizing n with
  | nil => rfl
  | cons c u ih => rw [List.cons_append, codeFrom_cons silent.1, ih silent.2, bytes_cons, Nat.add_assoc]

theorem codeFrom_skip {d : Text} {resume n : Nat} (u : Text) (before : n + bytes u ≤ resume) :
    codeFrom d resume n (u ++ t) = codeFrom d resume (n + bytes u) t := by
  induction u generalizing n with
  | nil => rfl
  | cons c u ih =>
    have positive := c.utf8Size_pos
    rw [bytes_cons, ← Nat.add_assoc] at before ⊢
    rw [← ih before, List.cons_append, codeFrom, everyOccurrence, List.filter_append]
    cases strip : stripLead? d (c :: (u ++ t)) with
    | none => rfl
    | some after =>
      have early : n < resume := by omega
      cases word : endsWord after with
      | false => simp [word, codeFrom]
      | true => simp [word, codeFrom, ofMarkers, early]

theorem endsWord_append {u : Text} (more : Text) (filled : u ≠ []) :
    endsWord (u ++ more) = endsWord u := by
  obtain ⟨c, tail, rfl⟩ := List.exists_cons_of_ne_nil filled
  rfl

/-- A block that is reached is found, and the search goes on after it. -/
theorem codeFrom_block {d before inside : Text} {resume n : Nat} (given : d ≠ [])
    (word : endsWord (before ++ ['\x7b'])) (clear : '\x7b' ∉ before)
    (closed : closeBrace 0 (inside ++ ['\x7d']) = some (inside, [])) (reached : resume ≤ n) :
    ∃ r, r.content = trim inside ∧
      IsBlock d r n (d ++ (before ++ '\x7b' :: (inside ++ ['\x7d']))) ∧
      codeFrom d resume n (d ++ (before ++ '\x7b' :: (inside ++ ['\x7d'])) ++ t) =
        r :: codeFrom d r.span.stop r.span.stop t := by
  generalize body : before ++ '\x7b' :: (inside ++ ['\x7d']) = u
  have found : ofMarker? d n (u ++ t) =
      some ⟨.code, trim inside, ⟨n, n + bytes (d ++ u)⟩⟩ := by
    have braces : braced? (u ++ t) = some (before, inside) := by
      refine braced?_eq_some_iff.mpr ⟨inside ++ ['\x7d'] ++ t, t, by simp [← body], clear, ?_⟩
      exact closeBrace_append t closed
    have one : ('\x7b' : Char).utf8Size = 1 ∧ ('\x7d' : Char).utf8Size = 1 := by decide
    rw [ofMarker?, braces]
    simp [← body, one, Nat.add_assoc]
  have ends : endsWord (u ++ t) = true := by
    have lead : u ++ t = (before ++ ['\x7b']) ++ (inside ++ ['\x7d'] ++ t) := by simp [← body]
    rw [lead, endsWord_append _ (by simp), word]
  refine ⟨⟨.code, trim inside, ⟨n, n + bytes (d ++ u)⟩⟩, rfl, ⟨before, inside, by rw [body], rfl⟩, ?_⟩
  obtain ⟨c, part, rfl⟩ := List.exists_cons_of_ne_nil given
  have strip : stripLead? (c :: part) (c :: (part ++ u ++ t)) = some (u ++ t) :=
    stripLead?_eq_some_iff.mpr (by simp)
  have stop : n + c.utf8Size + bytes (part ++ u) = n + bytes (c :: part ++ u) := by
    simp [Nat.add_assoc]
  have after := codeFrom_skip (d := c :: part) (t := t) (part ++ u) (Nat.le_of_eq stop)
  rw [stop] at after
  rw [← after, List.cons_append, List.cons_append, codeFrom, everyOccurrence, strip]
  simp [ends, ofMarkers, Nat.not_lt.mpr reached, found, codeFrom]

theorem directives_apart {d e : Text} (first : d ∈ directives) (second : e ∈ directives)
    (different : e ≠ d) (after more : Text) : e ++ after ≠ d ++ more := by
  have unlike : ∀ d ∈ directives, ∀ e ∈ directives, e ≠ d → e.take 2 ≠ d.take 2 ∧
      2 ≤ e.length ∧ 2 ≤ d.length := by decide
  obtain ⟨heads, long, length⟩ := unlike d first e second different
  intro same
  apply heads
  rw [← List.take_append_of_le_length long, ← List.take_append_of_le_length length, same]

/-- Each segment but the blocks of the directive is passed, and stays. -/
theorem row_passed {d : Text} {x : Segment} (member : d ∈ directives) (row : Row (x :: ps))
    (stays : x.outlasts d) : Silent (OpensCode d) x.text (textOf ps) := by
  cases row with
  | char inert later =>
    exact ⟨fun opens => not_opens_cons (fun sign => (inert sign).whole) (Or.inr ⟨d, member, opens⟩),
      trivial⟩
  | comment closed silent later =>
    refine silent_append ⟨?_, silent_plain (fun _ => OpensCode.sign member) (by decide)⟩
      (silent d member)
    rintro ⟨after, split, -⟩
    exact directive_not_comment member split.symm
  | @block e before inside _ known word clear closed comments others later =>
    have different : e ≠ d := by simpa [Segment.outlasts] using stays
    refine silent_append ?_ (others d member different.symm).whole
    obtain ⟨part, rfl, once⟩ := directive_once known
    refine ⟨?_, silent_plain (fun _ => OpensCode.sign member) once⟩
    rintro ⟨after, split, -⟩
    exact directives_apart member known different _ _ split

theorem row_later {x : Segment} (row : Row (x :: ps)) : Row ps := by
  cases row <;> assumption

def contentsOf (blocks : List (Text × Text)) (d : Text) : List Text :=
  (blocks.filter (·.1 == d)).map fun b => trim b.2

theorem contentsOf_passed {d : Text} {x : Segment} (stays : x.outlasts d) :
    contentsOf (blocksOf (x :: ps)) d = contentsOf (blocksOf ps) d := by
  cases x with
  | char c => rfl
  | comment inside => rfl
  | block e before inside =>
    have different : e ≠ d := by simpa [Segment.outlasts] using stays
    simp [contentsOf, blocksOf, Segment.block?, different]

theorem row_cut {d : Text} (member : d ∈ directives) (row : Row ps) {resume n : Nat}
    (reached : resume ≤ n) :
    Cut (IsBlock d) n (textOf ps) (codeFrom d resume n (textOf ps))
        (textOf (ps.filter (·.outlasts d))) ∧
      (codeFrom d resume n (textOf ps)).map (·.content) = contentsOf (blocksOf ps) d := by
  -- the search resumes after each block that it finds, so no block before `n` is in its way
  induction ps generalizing resume n with
  | nil => exact ⟨Cut.nil, rfl⟩
  | cons x ps ih =>
    cases stays : x.outlasts d with
    | true =>
      obtain ⟨cut, contents⟩ := ih (row_later row) (Nat.le_trans reached (Nat.le_add_right n (bytes x.text)))
      rw [List.filter_cons_of_pos stays, textOf_cons, textOf_cons, contentsOf_passed stays,
        codeFrom_silent (row_passed member row stays)]
      exact ⟨cut_after _ cut, contents⟩
    | false =>
      cases row with
      | char => cases stays
      | comment => cases stays
      | @block e before inside _ known word clear closed comments others later =>
        obtain rfl : e = d := by simpa [Segment.outlasts] using stays
        obtain ⟨r, content, block, found⟩ :=
          codeFrom_block (t := textOf ps) (directive_given member) word clear closed reached
        obtain ⟨cut, contents⟩ := ih later (Nat.le_refl r.span.stop)
        have text : textOf (.block e before inside :: ps) =
            e ++ (before ++ '\x7b' :: (inside ++ ['\x7d'])) ++ textOf ps := rfl
        rw [List.filter_cons_of_neg (by simp [stays]), text, found]
        refine ⟨Cut.take (by simp) block ?_, ?_⟩
        · rw [block.span] at cut ⊢
          exact cut
        · simpa [contentsOf, blocksOf, Segment.block?, content] using contents

end Search

section Removal

theorem blocksOf_filter {keep : Segment → Bool} {p : Text × Text → Bool}
    (agree : ∀ d before inside, keep (.block d before inside) = p (d, inside)) (ps : List Segment) :
    blocksOf (ps.filter keep) = (blocksOf ps).filter p := by
  rw [blocksOf, blocksOf, List.filterMap_filter, List.filter_filterMap]
  refine List.filterMap_congr fun x _ => ?_
  cases x with
  | char c => simp [Segment.block?]
  | comment inside => simp [Segment.block?]
  | block d before inside => simp [Segment.block?, agree, Option.filter]

theorem contentsOf_filter {d e : Text} (different : e ≠ d) (blocks : List (Text × Text)) :
    contentsOf (blocks.filter (·.1 != d)) e = contentsOf blocks e := by
  rw [contentsOf, List.filter_filter]
  congr 1
  refine List.filter_congr fun b _ => ?_
  by_cases same : b.1 = e
  · simp [same, different]
  · simp [same]

theorem row_withMarker {d : Text} (member : d ∈ directives) (row : Row ps) :
    (withMarker d (textOf ps)).map (·.content) = contentsOf (blocksOf ps) d ∧
      withoutCode (textOf ps) d = textOf (ps.filter (·.outlasts d)) := by
  obtain ⟨cut, contents⟩ := row_cut member row (Nat.le_refl 0)
  rw [← withMarker_eq_codeFrom member] at cut contents
  exact ⟨contents, outside_cut cut fun _ _ _ block => block.span⟩

theorem row_pass (ds : List Text) (known : ∀ d ∈ ds, d ∈ directives) (distinct : ds.Nodup)
    (row : Row ps) (plain : ∀ x ∈ ps, x.isComment = false) :
    (codeOfPass ds (textOf ps)).map (·.content) = ds.flatMap (contentsOf (blocksOf ps)) ∧
      ds.foldl withoutCode (textOf ps) = textOf (ps.filter fun x => ds.all fun d => x.outlasts d) := by
  induction ds generalizing ps with
  | nil => simp [codeOfPass]
  | cons d ds ih =>
    obtain ⟨fresh, distinct⟩ := List.nodup_cons.mp distinct
    obtain ⟨contents, left⟩ := row_withMarker (known d (List.mem_cons_self ..)) row
    have row : Row (ps.filter (·.outlasts d)) :=
      row_filter row (fun _ => rfl) fun x member comment => by simp [plain x member] at comment
    obtain ⟨later, rest⟩ := ih (fun d member => known d (List.mem_cons_of_mem _ member)) distinct row
      fun x member => plain x (List.mem_of_mem_filter member)
    constructor
    · rw [codeOfPass, List.map_append, contents, left, later, List.flatMap_cons,
        blocksOf_filter (p := (·.1 != d)) fun _ _ _ => rfl]
      congr 1
      refine List.flatMap_congr fun e member => contentsOf_filter ?_ _
      rintro rfl
      exact fresh member
    · rw [List.foldl_cons, left, rest, List.filter_filter]
      congr 1
      exact List.filter_congr fun x _ => by rw [List.all_cons, Bool.and_comm]

theorem row_members {d before inside : Text} (row : Row ps) (member : .block d before inside ∈ ps) :
    d ∈ directives := by
  induction row with
  | nil => cases member
  | char inert later ih => exact ih (by simpa using member)
  | comment closed silent later ih => exact ih (by simpa using member)
  | block known word clear closed comments others later ih =>
    rcases List.mem_cons.mp member with here | there
    · cases here
      exact known
    · exact ih there

/-- A pass takes out all comments and blocks, and then styles. -/
theorem row_removeOnce (row : Row ps) :
    (codeOfPass directives (removeDelimited "@*" "*@" (textOf ps))).map (·.content) =
        directives.flatMap (contentsOf (blocksOf ps)) ∧
      Row ((removeOnce (textOf ps)).map .char) := by
  have uncommented : removeDelimited "@*" "*@" (textOf ps) =
      textOf (ps.filter fun x => !x.isComment) := row_comments row _ (Nat.lt_succ_self _)
  have blocks : blocksOf (ps.filter fun x => !x.isComment) = blocksOf ps := by
    rw [blocksOf_filter (p := fun _ => true) fun _ _ _ => rfl, List.filter_true]
  have bare : Row (ps.filter fun x => !x.isComment) :=
    row_filter row (fun _ => rfl) fun x _ comment => by simp [comment]
  have plain : ∀ x ∈ ps.filter fun x => !x.isComment, x.isComment = false := by
    intro x member
    simpa using (List.mem_filter.mp member).2
  rw [removeOnce_eq, uncommented, ← blocks]
  generalize ps.filter (fun x => !x.isComment) = ps at bare plain
  obtain ⟨contents, left⟩ := row_pass directives (fun _ member => member) (by decide) bare plain
  refine ⟨contents, ?_⟩
  have chars : ∀ x ∈ ps.filter fun x => directives.all fun d => x.outlasts d, ∃ c, x = .char c := by
    intro x member
    obtain ⟨known, stays⟩ := List.mem_filter.mp member
    cases x with
    | char c => exact ⟨c, rfl⟩
    | comment inside => exact absurd (plain _ known) (by simp [Segment.isComment])
    | block d before inside =>
      have stays := List.all_eq_true.mp stays d (row_members bare known)
      simp [Segment.outlasts] at stays
  have row : Row (ps.filter fun x => directives.all fun d => x.outlasts d) :=
    row_filter bare (fun _ => rfl) fun x member comment => by simp [plain x member] at comment
  rw [← chars_textOf chars, ← left] at row
  exact row_styles row (stylesIn_cut _)

theorem removedCodeFrom_chars (fuel : Nat) (row : Row (t.map .char)) : removedCodeFrom fuel t = [] := by
  induction fuel generalizing t with
  | zero => rfl
  | succ fuel ih =>
    obtain ⟨contents, left⟩ := row_removeOnce row
    rw [textOf_chars] at contents left
    have nothing : blocksOf (t.map .char) = [] := by simp [blocksOf, Segment.block?]
    rw [removedCodeFrom, contents, nothing, ih left]
    simp [contentsOf]

/-- Where code stands in a row, a template loses just the code that is found in it. -/
theorem removed_code_is_found (t : Text) (blocks : List (Text × Text)) (row : CodeRow t blocks) :
    ((codeIn t).map (·.content)).Perm (removedCode t) ∧
      removedCode t = directives.flatMap (contentsOf blocks) := by
  obtain ⟨ps, row, rfl, rfl⟩ := row
  have removed : removedCode (textOf ps) = directives.flatMap (contentsOf (blocksOf ps)) := by
    obtain ⟨contents, left⟩ := row_removeOnce row
    rw [removedCode, removedCodeFrom, contents, removedCodeFrom_chars _ left]
    simp
  refine ⟨?_, removed⟩
  have found : (directives.flatMap fun d => withMarker d (textOf ps)).map (·.content) =
      removedCode (textOf ps) := by
    rw [removed, List.map_flatMap]
    exact List.flatMap_congr fun d member => (row_withMarker member row).1
  rw [← found]
  exact (List.mergeSort_perm _ _).map _

end Removal

/-- An at sign before a character that begins no directive and no comment is inert. -/
theorem inert_cons {c : Char} (plain : c ≠ '<')
    (other : ∀ d ∈ "@*".toList :: directives, d[1]? ≠ some c) (t : Text) : Inert (c :: t) := by
  refine ⟨[c], t, rfl, by simpa using plain.symm, fun more _ opens => ?_⟩
  obtain ⟨d, member, after, split⟩ : ∃ d ∈ "@*".toList :: directives, ∃ after,
      '@' :: c :: more = d ++ after := by
    rcases opens with ⟨after, split, -⟩ | ⟨d, member, after, split, -⟩
    · exact ⟨_, List.mem_cons_self .., after, split⟩
    · exact ⟨d, List.mem_cons_of_mem _ member, after, split⟩
  have long : ∀ d ∈ "@*".toList :: directives, 1 < d.length := by decide
  have second := congrArg (·[1]?) split
  rw [List.getElem?_append_left (long d member)] at second
  exact other d member second.symm

/-- An at sign with no star and no brace after it is inert, even as part of a directive. -/
theorem inert_plain (star : '*' ∉ t) (brace : '\x7b' ∉ t) : Inert t := by
  refine ⟨[], t, rfl, by simp, fun more sub opens => ?_⟩
  rcases opens with ⟨after, split, -⟩ | ⟨d, member, after, split, -, braces⟩
  · obtain ⟨-, rfl⟩ := List.cons.inj split
    exact star (sub.subset (List.mem_cons_self ..))
  · obtain ⟨⟨before, inside⟩, found⟩ := Option.isSome_iff_exists.mp braces
    obtain ⟨tail, -, rfl, -⟩ := braced?_eq_some_iff.mp found
    obtain ⟨part, rfl, -⟩ := directive_once member
    obtain ⟨-, rfl⟩ := List.cons.inj split
    exact brace (sub.subset (by simp))

theorem row_plain {u : Text} (plain : '@' ∉ u) (row : Row ps) : Row (u.map .char ++ ps) := by
  induction u with
  | nil => exact row
  | cons c u ih =>
    rw [List.mem_cons, not_or] at plain
    exact Row.char (fun sign => absurd sign.symm plain.1) (ih plain.2)

theorem row_sign {c : Char} (plain : c ≠ '<')
    (other : ∀ d ∈ "@*".toList :: directives, d[1]? ≠ some c) (row : Row (.char c :: ps)) :
    Row (.char '@' :: .char c :: ps) := by
  refine Row.char (fun _ keep chars => ?_) row
  rw [List.filter_cons_of_pos (chars c)]
  exact inert_cons plain other _

theorem row_comment (inside : Text) (plain : '@' ∉ inside)
    (closed : splitAt? "*@" (inside ++ "*@".toList) = some (inside, [])) (row : Row ps)
    (inert : Inert (textOf ps)) : Row (.comment inside :: ps) := by
  refine Row.comment closed (fun d member => ?_) row
  refine silent_append (silent_plain (fun _ => OpensCode.sign member) plain) ⟨?_, ?_, trivial⟩
  · intro opens
    obtain ⟨tail, split⟩ := opens.sign member
    exact absurd (List.cons.inj split).1 (by decide)
  · exact fun opens => inert.shut (Or.inr ⟨d, member, opens⟩)

theorem row_block (d inside : Text) (member : d ∈ directives)
    (closed : closeBrace 0 (inside ++ ['\x7d']) = some (inside, [])) (plain : '@' ∉ inside)
    (row : Row ps) : Row (.block d [' '] inside :: ps) := by
  have quiet : '@' ∉ Segment.body [' '] inside := by simp [Segment.body, plain]
  exact Row.block member (by decide) (by decide) closed
    (fun _ _ => silent_plain (fun _ => OpensComment.sign) quiet)
    (fun _ known _ _ _ => silent_plain (fun _ => OpensCode.sign known) quiet) row

def counterTemplate : Text :=
  "<p>@name</p>@* counts *@a@@b @code \x7b int x; \x7d<br>@functions \x7b int y; \x7d see @code"

theorem counterTemplate_code :
    CodeRow counterTemplate
        [("@code".toList, " int x; ".toList), ("@functions".toList, " int y; ".toList)] ∧
      ((codeIn counterTemplate).map (·.content)).Perm (removedCode counterTemplate) ∧
      removedCode counterTemplate = ["int x;".toList, "int y;".toList] := by
  have word : Row ("code".toList.map .char) := row_plain (u := "code") (by decide) Row.nil
  have mention : Row (" see ".toList.map .char ++ .char '@' :: "code".toList.map .char) :=
    row_plain (by decide)
      (Row.char (fun _ => always_chars (inert_plain (by decide) (by decide))) word)
  have blocks := row_block "@code" " int x; " (by decide) (by decide) (by decide)
    (row_plain (u := "<br>") (by decide)
      (row_block "@functions" " int y; " (by decide) (by decide) (by decide) mention))
  have signs := row_plain (u := "a") (by decide) (row_sign (c := '@') (by decide) (by decide)
    (row_sign (c := 'b') (by decide) (by decide) (row_plain (u := "b ") (by decide) blocks)))
  have comment := row_comment " counts " (by decide) (by decide) signs
    (inert_cons (c := 'a') (by decide) (by decide) _)
  have start := row_plain (u := "<p>") (by decide) (row_sign (c := 'n') (by decide) (by decide)
    (row_plain (u := "name</p>") (by decide) comment))
  have row : CodeRow counterTemplate
      [("@code".toList, " int x; ".toList), ("@functions".toList, " int y; ".toList)] :=
    ⟨_, start, by decide, by decide⟩
  obtain ⟨found, removed⟩ := removed_code_is_found counterTemplate _ row
  exact ⟨row, found, removed.trans (by decide)⟩

theorem not_perm_of_length (t : Text)
    (lengths : (directives.flatMap fun d => withMarker d t).length ≠ (removedCode t).length) :
    ¬((codeIn t).map (·.content)).Perm (removedCode t) := by
  intro perm
  have length := perm.length_eq
  rw [List.length_map, codeIn, List.length_mergeSort] at length
  exact lengths length

def commentedCode : Text := "@* @code \x7b x \x7d *@"

def codeInCode : Text := "@code \x7b @functions \x7b x \x7d \x7d"

/-- Code whose directive only comes together in a pass. -/
def brokenCode : Text := "@cod@code\x7b\x7de \x7b x \x7d"

/-- The first is found but not removed, the second is found twice, and the third is removed but not
found. -/
theorem found_and_removed_code_differ :
    ¬((codeIn commentedCode).map (·.content)).Perm (removedCode commentedCode) ∧
      ¬((codeIn codeInCode).map (·.content)).Perm (removedCode codeInCode) ∧
      ¬((codeIn brokenCode).map (·.content)).Perm (removedCode brokenCode) :=
  ⟨not_perm_of_length commentedCode (by decide +kernel),
    not_perm_of_length codeInCode (by decide +kernel),
    not_perm_of_length brokenCode (by decide +kernel)⟩

end TemplateMarkup.Region
