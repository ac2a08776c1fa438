import TemplateMarkup.Proofs.Markup.Agreement

/-!
Tokens that depend on the open tags, and tokens of a state, in two texts that agree. A name, an implied
end or a comment is found again where its characters stand, and a state that finds nothing in the one
text finds nothing in the other.
-/
namespace TemplateMarkup.Markup

open Cursor

def opensComment (t : Text) : Bool := ['<', '!', '-', '-'].isPrefixOf t

/-- Every comment that begins in a text also ends in it. -/
def commentsClosed : Text → Bool
  | [] => true
  | c :: t => (!opensComment (c :: t) || (Scan.commentLength 0 0 (t.drop 3)).isSome) && commentsClosed t

theorem commentsClosed_drop {t : Text} (closed : commentsClosed t = true) (n : Nat) :
    commentsClosed (t.drop n) = true := by
  induction n generalizing t with
  | zero => exact closed
  | succ n ih =>
    cases t with
    | nil => rfl
    | cons c t => exact ih (Bool.and_eq_true_iff.mp closed).2

theorem isPrefixOf_agree (w : Text) {r r' : Text} (other : '=' ∉ w) (agree : Agree r r') :
    w.isPrefixOf r = w.isPrefixOf r' := by
  induction agree generalizing w with
  | same => rfl
  | mark u u' =>
    cases w with
    | nil => rfl
    | cons c w =>
      have differs : (c == '=') = false := beq_false_of_ne fun same => other (by simp [same])
      simp [List.isPrefixOf, differs]
  | cons d _ ih =>
    cases w with
    | nil => rfl
    | cons c w =>
      rw [List.isPrefixOf, List.isPrefixOf, ih w fun member => other (List.mem_cons_of_mem c member)]

theorem opensComment_agree {r r' : Text} (agree : Agree r r') : opensComment r = opensComment r' :=
  isPrefixOf_agree _ (by decide) agree

namespace Scan

variable {r r' : Text} {c c' : Cursor} {tags : List Tag} {s : Scan}

theorem peek_agree (agree : Agree c.rest c'.rest) : peek c = peek c' := by
  rw [peek, peek, agree.head?]

theorem tagName_agree (agree : Agree c.rest c'.rest) :
    (tagName c).1 = (tagName c').1 ∧ (tagName c).2.atEnd = (tagName c').2.atEnd := by
  have name := agree.takeWhile (p := isTagNameChar) rfl
  refine ⟨by rw [tagName, tagName, name], ?_⟩
  have after := agree.drop (n := (c.rest.takeWhile isTagNameChar).length) (by
    rintro d member rfl
    rw [← List.prefix_iff_eq_take.mp (List.takeWhile_prefix _)] at member
    exact absurd (List.all_eq_true.mp List.all_takeWhile '=' member) (by decide))
  have empty := after.isEmpty
  rw [name] at empty
  rw [tagName, tagName, name]
  exact empty

theorem rawLength_ge (mark missing : Text) (seen : Nat) {kept : Nat} (low : kept ≤ seen) :
    kept ≤ rawLength mark missing seen kept r := by
  induction r generalizing missing seen kept with
  | nil => exact Nat.le_refl _
  | cons d r ih =>
    rw [rawLength]
    split
    · exact Nat.le_refl _
    · split
      · split
        · exact Nat.le_refl _
        · exact ih _ _ (Nat.le_succ_of_le low)
      · exact Nat.le_trans (Nat.le_succ_of_le low) (ih _ _ (Nat.le_refl _))

theorem rawLength_restart {mark missing t : Text} {seen kept : Nat} {d : Char} (solid : d ≠ '\x00')
    (differs : missing.head? ≠ some d.toUpper) :
    seen < rawLength mark missing seen kept (d :: t) := by
  rw [rawLength, if_neg solid, if_neg differs]
  exact rawLength_ge _ _ _ (Nat.le_refl _)

theorem rawLength_agree {mark missing : Text} {seen kept : Nat} (other : '=' ∉ missing)
    (agree : Agree r r') (ends : rawLength mark missing seen kept r ≤ seen) :
    rawLength mark missing seen kept r' = rawLength mark missing seen kept r := by
  induction agree generalizing missing seen with
  | same r => rfl
  | mark u u' =>
    have differs : missing.head? ≠ some '='.toUpper :=
      fun head => other (List.mem_of_mem_head? head)
    exact absurd ends (Nat.not_le_of_gt (rawLength_restart (by decide) differs))
  | cons d _ ih =>
    by_cases null : d = '\x00'
    · simp [rawLength, null]
    by_cases meets : missing.head? = some d.toUpper
    · rw [rawLength, if_neg null, if_pos meets] at ends ⊢
      rw [rawLength, if_neg null, if_pos meets]
      have later : '=' ∉ missing.tail := fun member => other (List.mem_of_mem_tail member)
      cases left : missing.tail with
      | nil => rfl
      | cons e left' =>
        rw [left] at ends later
        exact ih later (Nat.le_succ_of_le ends)
    · exact absurd ends (Nat.not_le_of_gt (rawLength_restart null meets))

/-- Raw text ends where it does whatever the characters after it are, if these agree. -/
theorem rawLength_follow {mark missing : Text} {seen kept n : Nat} (otherMark : '=' ∉ mark)
    (other : '=' ∉ missing) (ends : rawLength mark missing seen kept r ≤ seen + n)
    (follow : Follow r r' n) :
    rawLength mark missing seen kept r' = rawLength mark missing seen kept r := by
  induction n generalizing r r' missing seen kept with
  | zero => exact rawLength_agree other (by simpa using follow.agree) ends
  | succ n ih =>
    cases r with
    | nil =>
      have empty := follow.whole.isEmpty
      rw [List.isEmpty_iff.mp empty.symm]
    | cons d r =>
      obtain ⟨t, rfl⟩ : ∃ t, r' = d :: t := List.head?_eq_some_iff.mp follow.whole.head?.symm
      rw [Nat.add_comm] at follow
      have rest : Follow r t n := by
        have after := follow.drop
        exact after
      by_cases null : d = '\x00'
      · simp [rawLength, null]
      by_cases meets : missing.head? = some d.toUpper
      · rw [rawLength, if_neg null, if_pos meets] at ends ⊢
        rw [rawLength, if_neg null, if_pos meets]
        have later : '=' ∉ missing.tail := fun member => other (List.mem_of_mem_tail member)
        cases left : missing.tail with
        | nil => rfl
        | cons e left' =>
          rw [left] at ends later
          dsimp only at ends
          exact ih later (by omega) rest
      · rw [rawLength, if_neg null, if_neg meets] at ends ⊢
        rw [rawLength, if_neg null, if_neg meets]
        exact ih otherMark (by omega) rest

theorem commentLength_bounds {hyphens seen n : Nat} (found : commentLength hyphens seen r = some n) :
    seen < n ∧ n ≤ seen + r.length := by
  induction r generalizing hyphens seen with
  | nil => cases found
  | cons d r ih =>
    rw [commentLength] at found
    grind

theorem commentLength_take {hyphens seen n : Nat} (found : commentLength hyphens seen r = some n)
    (u : Text) : commentLength hyphens seen (r.take (n - seen) ++ u) = some n := by
  induction r generalizing hyphens seen with
  | nil => cases found
  | cons d r ih =>
    have more := (commentLength_bounds found).1
    obtain ⟨k, size⟩ := Nat.exists_eq_add_of_lt more
    have left : n - seen = k + 1 := by omega
    have later : n - (seen + 1) = k := by omega
    rw [left, List.take_succ_cons, List.cons_append]
    by_cases null : d = '\x00'
    · simp [commentLength, null] at found
    by_cases hyphen : d = '-'
    · rw [commentLength, if_neg null, if_pos hyphen] at found ⊢
      exact later ▸ ih found
    by_cases closes : d = '>' ∧ 2 ≤ hyphens
    · rwa [commentLength, if_neg null, if_neg hyphen, if_pos closes] at found ⊢
    · rw [commentLength, if_neg null, if_neg hyphen, if_neg closes] at found ⊢
      exact later ▸ ih found

def moved (s : Scan) (c : Cursor) (n : Nat) : Scan := { s with start := c, stop := c.skip n }

@[simp] theorem moved_token (s : Scan) (c : Cursor) (n : Nat) : (s.moved c n).token = s.token := rfl

@[simp] theorem moved_tags (s : Scan) (c : Cursor) (n : Nat) : (s.moved c n).tags = s.tags := rfl

/-- The scan is found again, `n` characters long, wherever these characters stand in a text that agrees
after them. -/
def Stable (scan : Cursor → Option Scan) (c : Cursor) (s : Scan) : Prop :=
  ∃ n, s = s.moved c n ∧ ∀ c' : Cursor, Follow c.rest c'.rest n → scan c' = some (s.moved c' n)

theorem rawText_stable (found : rawText tags c = some s) : Stable (rawText tags) c s := by
  unfold rawText at found
  split at found
  · cases found
  · rename_i tag tags
    cases found
    refine ⟨_, rfl, ?_⟩
    intro c' follow
    have mark : '=' ∉ (if tag.isNamed ["SCRIPT"] then "</SCRIPT".toList else "</STYLE".toList) := by
      split <;> decide
    have same := rawLength_follow mark mark (Nat.le_of_eq (Nat.zero_add _).symm) follow
    unfold rawText
    dsimp only
    rw [same]
    rfl

theorem take_succ_cons {n : Nat} {d : Char} {l : Text} (same : r.take (n + 1) = d :: l) :
    ∃ t, r = d :: t ∧ t.take n = l := by
  cases r with
  | nil => cases same
  | cons e t =>
    cases same
    exact ⟨t, rfl, rfl⟩

theorem comment_stable (found : comment tags c = some s) :
    ∃ n ≤ c.rest.length, s = s.moved c n ∧ ∀ (c' : Cursor) (u : Text), c'.rest = c.rest.take n ++ u →
      comment tags c' = some (s.moved c' n) := by
  unfold comment at found
  split at found
  · rename_i t rest
    obtain ⟨n, length, rfl⟩ := Option.map_eq_some_iff.mp found
    have bound := (commentLength_bounds length).2
    refine ⟨n + 4, by simp only [rest, List.length_cons]; omega, rfl, ?_⟩
    intro c' u rest'
    rw [rest, show ('<' :: '!' :: '-' :: '-' :: t).take (n + 4) ++ u =
      '<' :: '!' :: '-' :: '-' :: (t.take n ++ u) from rfl] at rest'
    have again : commentLength 0 0 (t.take n ++ u) = some n := commentLength_take length u
    have length' := congrArg (Option.map fun n => Scan.mk .comment c' (c'.skip (n + 4)) tags) again
    unfold comment
    rw [rest']
    exact length'
  · cases found

theorem impliedEnd_agree {next next' : Cursor} (agree : Agree next.rest next'.rest) :
    (impliedEnd tags c next).isSome = (impliedEnd tags c' next').isSome := by
  have names := tagName_agree agree
  unfold impliedEnd
  dsimp only
  rw [peek_agree agree]
  by_cases slash : peek next' = some '/'
  · have after : Agree (next.skip 1).rest (next'.skip 1).rest := by
      refine agree.drop fun d member => ?_
      have head : next.rest.head? = some '/' := by
        rw [← peek_agree agree] at slash
        unfold peek at slash
        split at slash
        · cases slash
        · exact slash
      obtain ⟨t, rest⟩ := List.head?_eq_some_iff.mp head
      rw [rest] at member
      rw [List.mem_singleton.mp member]
      decide
    obtain ⟨name, ends⟩ := tagName_agree after
    rw [if_pos slash, if_pos slash, name, ends]
    grind
  · rw [if_neg slash, if_neg slash, names.1, names.2]
    grind

theorem startName_stable (found : startName tags c = some s) : Stable (startName tags) c s := by
  unfold startName at found
  dsimp only at found
  split at found
  · cases found
  · rename_i filled
    cases found
    refine ⟨_, rfl, ?_⟩
    intro c' follow
    have name := (tagName_agree follow.whole).1
    have length : (tagName c').2 = c'.skip (c.rest.takeWhile isTagNameChar).length := by
      rw [tagName, follow.whole.takeWhile rfl]
    unfold startName
    dsimp only
    rw [← name, if_neg filled, length]
    rfl

theorem endName_stable (found : endName tags c = some s) : Stable (endName tags) c s := by
  have again : ∀ c' : Cursor, Agree c.rest c'.rest →
      (tagName c').1 = (tagName c).1 ∧
        (tagName c').2 = c'.skip (c.rest.takeWhile isTagNameChar).length := by
    intro c' agree
    exact ⟨(tagName_agree agree).1.symm, by rw [tagName, agree.takeWhile rfl]⟩
  unfold endName at found
  dsimp only at found
  split at found
  · cases found
  · rename_i filled
    split at found
    all_goals
      rename_i known
      cases found
      refine ⟨_, rfl, ?_⟩
      intro c' follow
      obtain ⟨name, length⟩ := again c' follow.whole
      unfold endName
      dsimp only
      rw [name, if_neg filled, length]
    · rw [if_pos known]
      rfl
    · rw [if_neg known]
      rfl

theorem selfClose_stable (found : selfClose tags c = some s) : Stable (selfClose tags) c s := by
  unfold selfClose at found
  split at found
  · rename_i t rest
    have again : ∀ c' : Cursor, Follow c.rest c'.rest 2 → ∃ t', c'.rest = '/' :: '>' :: t' := by
      intro c' follow
      have same := follow.same.symm
      rw [rest] at same
      obtain ⟨t₁, rest', same₁⟩ := take_succ_cons same
      obtain ⟨t₂, rfl, -⟩ := take_succ_cons same₁
      exact ⟨t₂, rest'⟩
    split at found
    all_goals
      cases found
      refine ⟨2, rfl, ?_⟩
      intro c' follow
      obtain ⟨t', rest'⟩ := again c' follow
      unfold selfClose
      rw [rest']
      rfl
  · cases found

theorem impliedEnd_moved {next next' : Cursor} (agree : Agree next.rest next'.rest)
    (found : impliedEnd tags c next = some s) :
    s = s.moved c 0 ∧ impliedEnd tags c' next' = some (s.moved c' 0) := by
  have both : (impliedEnd tags c next).isSome = (impliedEnd tags c' next').isSome := impliedEnd_agree agree
  rw [found] at both
  obtain ⟨s', found'⟩ := Option.isSome_iff_exists.mp both.symm
  obtain rfl := impliedEnd_eq found
  rw [found', impliedEnd_eq found']
  simp [moved, skip_zero]

/-- The token at a place that no blank follows; raw text apart. -/
def readAt (e : Expectation) (tags : List Tag) (c : Cursor) : Option Scan :=
  match peek c with
  | some '<' =>
    if peek (c.skip 1) = some '!' then comment tags c
    else if e.impliesEnd then impliedEnd tags c (c.skip 1)
    else none
  | none => if e.impliesEnd then impliedEnd tags c c else none
  | some '/' => if e.closesSelf then selfClose tags c else none
  | some _ =>
    match e with
    | .startName => startName tags c
    | .endName => endName tags c
    | _ => none

theorem read_eq {e : Expectation} (other : e ≠ .rawText) (tags : List Tag) (c : Cursor) :
    read e tags c = readAt e tags (c.skip (blanks c.rest)) := by
  rw [read, if_neg other]
  rfl

section Peeks

variable {e : Expectation}

theorem readAt_angle (peeks : peek c = some '<') :
    readAt e tags c = if peek (c.skip 1) = some '!' then comment tags c
      else if e.impliesEnd then impliedEnd tags c (c.skip 1) else none := by
  unfold readAt
  rw [peeks]
  rfl

theorem readAt_end (peeks : peek c = none) :
    readAt e tags c = if e.impliesEnd then impliedEnd tags c c else none := by
  unfold readAt
  rw [peeks]

theorem readAt_slash (peeks : peek c = some '/') :
    readAt e tags c = if e.closesSelf then selfClose tags c else none := by
  unfold readAt
  rw [peeks]
  rfl

theorem readAt_name {d : Char} (peeks : peek c = some d) (angle : d ≠ '<') (slash : d ≠ '/') :
    readAt e tags c = if e = .startName then startName tags c
      else if e = .endName then endName tags c else none := by
  unfold readAt
  rw [peeks]
  cases e <;> grind

end Peeks

theorem peek_some {d : Char} (peeks : peek c = some d) : ∃ t, c.rest = d :: t := by
  unfold peek at peeks
  split at peeks
  · cases peeks
  · exact List.head?_eq_some_iff.mp peeks

theorem agree_after {d : Char} (peeks : peek c = some d) (other : d ≠ '=')
    (agree : Agree c.rest c'.rest) : Agree (c.skip 1).rest (c'.skip 1).rest := by
  obtain ⟨t, rest⟩ := peek_some peeks
  refine agree.drop fun e member => ?_
  rw [rest] at member
  rwa [List.mem_singleton.mp member]

theorem readAt_stable {e : Expectation} (found : readAt e tags c = some s) :
    Stable (readAt e tags) c s := by
  cases peeks : peek c with
  | none =>
    rw [readAt_end peeks] at found
    split at found
    · rename_i implies
      have here : s = s.moved c 0 ∧ impliedEnd tags c c = some (s.moved c 0) :=
        impliedEnd_moved (.same _) found
      refine ⟨0, here.1, fun c' follow => ?_⟩
      rw [readAt_end ((peek_agree follow.whole).symm.trans peeks), if_pos implies]
      exact (impliedEnd_moved follow.whole found).2
    · cases found
  | some d =>
    by_cases angle : d = '<'
    · subst angle
      have opens : ∀ c' : Cursor, Agree c.rest c'.rest →
          peek c' = some '<' ∧ Agree (c.skip 1).rest (c'.skip 1).rest :=
        fun c' agree => ⟨(peek_agree agree).symm.trans peeks, agree_after peeks (by decide) agree⟩
      rw [readAt_angle peeks] at found
      split at found
      · rename_i marks
        obtain ⟨n, -, same, again⟩ := comment_stable found
        refine ⟨n, same, fun c' follow => ?_⟩
        obtain ⟨peeks', after⟩ := opens c' follow.whole
        rw [readAt_angle peeks', if_pos ((peek_agree after).symm.trans marks)]
        refine again c' (c'.rest.drop n) ?_
        rw [follow.same, List.take_append_drop]
      · rename_i marks
        split at found
        · rename_i implies
          have here : s = s.moved c 0 ∧ impliedEnd tags c (c.skip 1) = some (s.moved c 0) :=
            impliedEnd_moved (.same _) found
          refine ⟨0, here.1, fun c' follow => ?_⟩
          obtain ⟨peeks', after⟩ := opens c' follow.whole
          rw [readAt_angle peeks', if_neg (by rwa [← peek_agree after]), if_pos implies]
          exact (impliedEnd_moved after found).2
        · cases found
    by_cases slash : d = '/'
    · subst slash
      rw [readAt_slash peeks] at found
      split at found
      · rename_i closes
        obtain ⟨n, same, again⟩ := selfClose_stable found
        refine ⟨n, same, fun c' follow => ?_⟩
        rw [readAt_slash ((peek_agree follow.whole).symm.trans peeks), if_pos closes]
        exact again c' follow
      · cases found
    have name : ∀ c' : Cursor, Agree c.rest c'.rest → readAt e tags c' =
        if e = .startName then startName tags c' else if e = .endName then endName tags c' else none :=
      fun c' agree => readAt_name ((peek_agree agree).symm.trans peeks) angle slash
    rw [name c (.same _)] at found
    split at found
    · rename_i starts
      obtain ⟨n, same, again⟩ := startName_stable found
      refine ⟨n, same, fun c' follow => ?_⟩
      rw [name c' follow.whole, if_pos starts]
      exact again c' follow
    · rename_i starts
      split at found
      · rename_i ends
        obtain ⟨n, same, again⟩ := endName_stable found
        refine ⟨n, same, fun c' follow => ?_⟩
        rw [name c' follow.whole, if_neg starts, if_pos ends]
        exact again c' follow
      · cases found

/-- A token that depends on the open tags is found again where its characters stand in a text that
agrees after them. -/
theorem read_found {e : Expectation} (found : read e tags c = some s) :
    ∃ k n, s = s.moved (c.skip k) n ∧ ∀ c' : Cursor,
      Follow c.rest c'.rest (k + n) → read e tags c' = some (s.moved (c'.skip k) n) := by
  by_cases raw : e = .rawText
  · subst raw
    rw [read, if_pos rfl] at found
    obtain ⟨n, same, again⟩ := rawText_stable found
    refine ⟨0, n, (skip_zero c).symm ▸ same, fun c' follow => ?_⟩
    rw [Nat.zero_add] at follow
    rw [read, if_pos rfl, skip_zero]
    exact again c' follow
  · rw [read_eq raw] at found
    obtain ⟨n, same, again⟩ := readAt_stable found
    refine ⟨blanks c.rest, n, same, fun c' follow => ?_⟩
    rw [read_eq raw, (blanks_agree follow.whole).1]
    exact again _ follow.drop

theorem comment_of_not_opens (shut : opensComment c.rest = false) : comment tags c = none := by
  unfold comment
  split
  · rename_i rest
    rw [rest] at shut
    cases shut
  · rfl

/-- In a text whose comments are closed, a comment that is not found does not begin. -/
theorem not_opens_of_comment (closed : commentsClosed c.rest = true)
    (absent : comment tags c = none) : opensComment c.rest = false := by
  refine Bool.eq_false_iff.mpr fun opens => ?_
  obtain ⟨t, lead⟩ := List.isPrefixOf_iff_prefix.mp opens
  have rest : c.rest = '<' :: '!' :: '-' :: '-' :: t := lead.symm
  have length : (commentLength 0 0 t).isSome := by
    rw [rest] at closed opens
    rw [commentsClosed, opens] at closed
    exact (Bool.and_eq_true_iff.mp closed).1
  obtain ⟨n, found⟩ := Option.isSome_iff_exists.mp length
  unfold comment at absent
  rw [rest] at absent
  have map := Option.map_eq_none_iff.mp absent
  rw [found] at map
  cases map

theorem selfClose_none_iff : selfClose tags c = none ↔ ['/', '>'].isPrefixOf c.rest = false := by
  unfold selfClose
  split
  · rename_i rest
    rw [rest]
    split <;> simp [List.isPrefixOf]
  · rename_i other
    refine ⟨fun _ => Bool.eq_false_iff.mpr fun opens => ?_, fun _ => rfl⟩
    obtain ⟨t, rest⟩ := List.isPrefixOf_iff_prefix.mp opens
    exact other t rest.symm

theorem startName_none_iff : startName tags c = none ↔ (tagName c).1.isEmpty = true := by
  unfold startName
  grind

theorem endName_none_iff : endName tags c = none ↔ (tagName c).1.isEmpty = true := by
  unfold endName
  grind

theorem readAt_none {e : Expectation} (closed : commentsClosed c.rest = true)
    (agree : Agree c.rest c'.rest) (absent : readAt e tags c = none) : readAt e tags c' = none := by
  have implied : ∀ {next next' : Cursor}, Agree next.rest next'.rest → impliedEnd tags c next = none →
      impliedEnd tags c' next' = none := by
    intro next next' agree absent
    have both : (impliedEnd tags c next).isSome = (impliedEnd tags c' next').isSome :=
      impliedEnd_agree agree
    rw [absent] at both
    exact Option.isNone_iff_eq_none.mp (by simpa using both.symm)
  cases peeks : peek c with
  | none =>
    rw [readAt_end peeks] at absent
    rw [readAt_end ((peek_agree agree).symm.trans peeks)]
    split
    · rename_i implies
      rw [if_pos implies] at absent
      exact implied agree absent
    · rfl
  | some d =>
    have peeks' := (peek_agree agree).symm.trans peeks
    by_cases angle : d = '<'
    · subst angle
      have after := agree_after peeks (by decide) agree
      rw [readAt_angle peeks] at absent
      rw [readAt_angle peeks', ← peek_agree after]
      split at absent
      · rename_i marks
        rw [if_pos marks]
        refine comment_of_not_opens ?_
        rw [← opensComment_agree agree]
        exact not_opens_of_comment closed absent
      · rename_i marks
        rw [if_neg marks]
        split at absent
        · rename_i implies
          rw [if_pos implies]
          exact implied after absent
        · rename_i implies
          rw [if_neg implies]
    by_cases slash : d = '/'
    · subst slash
      rw [readAt_slash peeks] at absent
      rw [readAt_slash peeks']
      split at absent
      · rename_i closes
        rw [if_pos closes]
        rw [selfClose_none_iff] at absent ⊢
        rwa [← isPrefixOf_agree _ (by decide) agree]
      · rename_i closes
        rw [if_neg closes]
    rw [readAt_name peeks angle slash] at absent
    rw [readAt_name peeks' angle slash]
    have name := (tagName_agree agree).1
    grind [startName_none_iff, endName_none_iff]

theorem read_none {e : Expectation} (closed : commentsClosed c.rest = true)
    (agree : Agree c.rest c'.rest) (absent : read e tags c = none) : read e tags c' = none := by
  by_cases raw : e = .rawText
  · subst raw
    rw [read, if_pos rfl] at absent ⊢
    unfold rawText at absent ⊢
    split at absent
    · rfl
    · cases absent
  · obtain ⟨same, rest⟩ := blanks_agree agree
    rw [read_eq raw] at absent ⊢
    rw [same]
    exact readAt_none (commentsClosed_drop closed _) rest absent

theorem comment_rest (found : comment tags c = some s) : ∃ t, c.rest = '<' :: '!' :: '-' :: '-' :: t := by
  unfold comment at found
  split at found
  · rename_i t rest
    exact ⟨t, rest⟩
  · cases found

theorem comment_token (found : comment tags c = some s) : s.token = .comment := by
  unfold comment at found
  split at found
  · obtain ⟨n, -, rfl⟩ := Option.map_eq_some_iff.mp found
    rfl
  · cases found

theorem comment_of_read {e : Expectation} (other : e ≠ .rawText) (found : read e tags c = some s)
    (token : s.token = .comment) : comment tags (c.skip (blanks c.rest)) = some s := by
  rw [read_eq other] at found
  generalize c.skip (blanks c.rest) = d at found ⊢
  unfold readAt at found
  split at found
  · split at found
    · exact found
    · split at found
      · rw [impliedEnd_eq found] at token
        cases token
      · cases found
  · split at found
    · rw [impliedEnd_eq found] at token
      cases token
    · cases found
  · unfold selfClose at found
    grind
  · unfold startName endName at found
    grind

theorem impliedEnd_token {next : Cursor} (found : impliedEnd tags c next = some s) :
    s.token = .impliedEnd := by
  rw [impliedEnd_eq found]

theorem read_token {e : Expectation} (found : read e tags c = some s) :
    s.token.isScanned = true ∨ s.token = .selfClose := by
  by_cases raw : e = .rawText
  · subst raw
    rw [read, if_pos rfl] at found
    unfold rawText at found
    split at found
    · cases found
    · cases found
      exact Or.inl rfl
  rw [read_eq raw] at found
  unfold readAt at found
  split at found
  · grind [comment_token, impliedEnd_token, Terminal.isScanned]
  · grind [impliedEnd_token, Terminal.isScanned]
  · unfold selfClose at found
    grind [Terminal.isScanned]
  · unfold startName endName at found
    grind [Terminal.isScanned]

end Scan

namespace Token

variable {c c' : Cursor} {tags : Option (List Tag)} {token : Token}

def moved (token : Token) (c : Cursor) (n : Nat) : Token := { token with start := c, stop := c.skip n }

/-- The second text has the first so many characters of the other one, and it agrees after them unless
the token is an equals sign. -/
def Repeats (token : Token) (r r' : Text) (n : Nat) : Prop :=
  ∃ u, r' = r.take n ++ u ∧ (token.terminal ≠ some .equals → Agree (r.drop n) u)

theorem skip_stays_iff (c : Cursor) (n : Nat) : (c.skip n).offset ≤ c.offset ↔ c.rest.take n = [] := by
  unfold skip
  constructor
  · intro low
    dsimp only at low
    exact Text.bytes_eq_zero (by omega)
  · intro empty
    simp [empty]

/-- Found where it stands and, moved along, wherever a text repeats it. -/
def Stable (read : Cursor → Option Token) (c : Cursor) (token : Token) : Prop :=
  ∃ k n, token = token.moved (c.skip k) n ∧ ∀ c' : Cursor, token.Repeats c.rest c'.rest (k + n) →
    Agree c.rest c'.rest ∧ read c' = some (token.moved (c'.skip k) n)

def ofScan (idle : Terminal → Bool) (tags : Option (List Tag)) (c : Cursor) (s : Scan) : Option Token :=
  if s.stop.offset ≤ c.offset && !decide (tags ≠ some (Tag.remember s.tags)) && idle s.token then none
  else some ⟨some s.token, s.start, s.stop, some (Tag.remember s.tags), tags ≠ some (Tag.remember s.tags)⟩

theorem keep_map {α β : Type} (b : Bool) (x : α) (f : α → β) :
    (if b = true then none else some (f x)) = (if b = true then none else some x).map f := by
  cases b <;> rfl

def ofReading : Reading → Option Token
  | .found a start stop => some ⟨some a, start, stop, none, false⟩
  | .stuck _ _ => none

theorem read?_eq (e : Expectation) (m : Mode) (idle : Terminal → Bool) (tags : Option (List Tag))
    (c : Cursor) :
    (read? e m idle tags c).getLeft? =
      ((Scan.read e (tags.getD []) c).bind (ofScan idle tags c)).or (ofReading (m.read c)) := by
  unfold read?
  dsimp only
  cases scanned : (Scan.read e (tags.getD []) c).bind (ofScan idle tags c) with
  | some token =>
    unfold ofScan at scanned
    rw [scanned]
    rfl
  | none =>
    unfold ofScan at scanned
    rw [scanned]
    cases m.read c <;> rfl

section Repeats

variable {e : Expectation} {m : Mode} {idle : Terminal → Bool}

theorem ofScan_moved {s : Scan} {k n : Nat} (here : s = s.moved (c.skip k) n)
    (same : c'.rest.take (k + n) = [] ↔ c.rest.take (k + n) = []) :
    ofScan idle tags c' (s.moved (c'.skip k) n) =
      (ofScan idle tags c s).map fun token => token.moved (c'.skip k) n := by
  have stays : (s.moved (c'.skip k) n).stop.offset ≤ c'.offset ↔ s.stop.offset ≤ c.offset := by
    rw [here]
    unfold Scan.moved
    dsimp only
    rw [skip_skip, skip_skip, skip_stays_iff, skip_stays_iff, same]
  have empty : decide ((s.moved (c'.skip k) n).stop.offset ≤ c'.offset) =
      decide (s.stop.offset ≤ c.offset) := decide_eq_decide.mpr stays
  unfold ofScan
  rw [empty]
  refine Eq.trans ?_ (keep_map _ _ _)
  rfl

theorem ofScan_here {s : Scan} {d : Cursor} {n : Nat} (counts : ofScan idle tags c s = some token)
    (here : s = s.moved d n) : token.terminal = some s.token ∧ token = token.moved d n := by
  have start : s.start = d := congrArg Scan.start here
  have stop : s.stop = d.skip n := congrArg Scan.stop here
  unfold ofScan at counts
  split at counts
  · cases counts
  · cases counts
    refine ⟨rfl, ?_⟩
    rw [moved, ← stop, ← start]

theorem scanned_none (closed : commentsClosed c.rest = true) (agree : Agree c.rest c'.rest)
    (absent : (Scan.read e (tags.getD []) c).bind (ofScan idle tags c) = none) :
    (Scan.read e (tags.getD []) c').bind (ofScan idle tags c') = none := by
  cases scan : Scan.read e (tags.getD []) c with
  | none => rw [Scan.read_none closed agree scan, Option.bind_none]
  | some s =>
    rw [scan, Option.bind_some] at absent
    obtain ⟨k, n, here, again⟩ := Scan.read_found scan
    have empty : c.rest.take (k + n) = [] := by
      rw [← skip_stays_iff, ← skip_skip]
      have stays : s.stop.offset ≤ c.offset := by
        unfold ofScan at absent
        split at absent
        · rename_i left
          simp only [Bool.and_eq_true, decide_eq_true_eq] at left
          exact left.1.1
        · cases absent
      rw [here] at stays
      exact stays
    have follow : Follow c.rest c'.rest (k + n) := by
      rcases List.take_eq_nil_iff.mp empty with none | none
      · rw [none]
        exact ⟨rfl, agree⟩
      · have none' : c'.rest = [] := by
          rw [← List.isEmpty_iff, ← agree.isEmpty, none]
          rfl
        rw [none, none']
        exact ⟨rfl, .same _⟩
    rw [again c' follow, Option.bind_some, ofScan_moved here (by rw [follow.same]), absent, Option.map_none]

theorem scanned_found (found : (Scan.read e (tags.getD []) c).bind (ofScan idle tags c) = some token) :
    token.terminal ≠ some .equals ∧
      ∃ k n, token = token.moved (c.skip k) n ∧ ∀ c' : Cursor, Follow c.rest c'.rest (k + n) →
        (Scan.read e (tags.getD []) c').bind (ofScan idle tags c') =
          some (token.moved (c'.skip k) n) := by
  obtain ⟨s, scan, counts⟩ := Option.bind_eq_some_iff.mp found
  obtain ⟨k, n, here, again⟩ := Scan.read_found scan
  have other : s.token ≠ .equals := by
    intro same
    have sort := Scan.read_token scan
    rw [same] at sort
    rcases sort with sort | sort <;> cases sort
  obtain ⟨terminal, moved⟩ := ofScan_here counts here
  refine ⟨by rw [terminal]; simpa using other, k, n, moved, fun c' follow => ?_⟩
  rw [again c' follow, Option.bind_some, ofScan_moved here (by rw [follow.same]), counts, Option.map_some]

theorem read?_found (outer : m.isOuter = true) (closed : commentsClosed c.rest = true)
    (found : (read? e m idle tags c).getLeft? = some token) :
    Stable (fun c' => (read? e m idle tags c').getLeft?) c token := by
  rw [read?_eq] at found
  cases scanned : (Scan.read e (tags.getD []) c).bind (ofScan idle tags c) with
  | some other =>
    rw [scanned] at found
    cases found
    obtain ⟨other, k, n, here, again⟩ := scanned_found scanned
    refine ⟨k, n, here, fun c' repeats => ?_⟩
    obtain ⟨u, rest, agree⟩ := repeats
    have follow : Follow c.rest c'.rest (k + n) := rest ▸ Follow.of_append (agree other)
    refine ⟨follow.whole, ?_⟩
    dsimp only
    rw [read?_eq, again c' follow]
    rfl
  | none =>
    rw [scanned, Option.none_or] at found
    cases lexed : m.read c with
    | stuck start reached =>
      rw [lexed] at found
      cases found
    | found a start stop =>
      rw [lexed] at found
      cases found
      obtain ⟨k, n, rfl, rfl, again⟩ := Mode.read_found outer lexed
      refine ⟨k, n, rfl, fun c' repeats => ?_⟩
      obtain ⟨u, rest, after⟩ := repeats
      obtain ⟨agree, lexed'⟩ := again c' u rest fun other => after (by simpa using other)
      refine ⟨agree, ?_⟩
      dsimp only
      rw [read?_eq, scanned_none closed agree scanned, Option.none_or, lexed']
      rfl

theorem read?_none (outer : m.isOuter = true) (closed : commentsClosed c.rest = true)
    (agree : Agree c.rest c'.rest) (stuck : (read? e m idle tags c).getLeft? = none) :
    (read? e m idle tags c').getLeft? = none := by
  rw [read?_eq, Option.or_eq_none_iff] at stuck ⊢
  refine ⟨scanned_none closed agree stuck.1, ?_⟩
  cases lexed : m.read c with
  | found a start stop =>
    rw [lexed] at stuck
    cases stuck.2
  | stuck start reached =>
    obtain ⟨start', reached', again⟩ := Mode.read_stuck outer agree lexed
    rw [again]
    rfl

end Repeats

theorem recover_of_found
    (found : (read? .anything .recovery (fun _ => true) tags c).getLeft? = some token) :
    recover tags c = token := by
  unfold recover
  rw [Sum.getLeft?_eq_some_iff.mp found]

theorem recover_of_stuck
    (stuck : (read? .anything .recovery (fun _ => true) tags c).getLeft? = none) :
    (recover tags c).terminal = none := by
  unfold recover
  cases read : read? .anything .recovery (fun _ => true) tags c with
  | inl token =>
    rw [read] at stuck
    cases stuck
  | inr places => exact skipUnreadable_terminal _ _

theorem recover_stable {a : Terminal} (closed : commentsClosed c.rest = true)
    (terminal : (recover tags c).terminal = some a) :
    Stable (fun c' => some (recover tags c')) c (recover tags c) := by
  cases found : (read? .anything .recovery (fun _ => true) tags c).getLeft? with
  | none =>
    rw [recover_of_stuck found] at terminal
    cases terminal
  | some token =>
    rw [recover_of_found found]
    obtain ⟨k, n, here, again⟩ := read?_found rfl closed found
    refine ⟨k, n, here, fun c' repeats => ?_⟩
    obtain ⟨agree, found'⟩ := again c' repeats
    exact ⟨agree, congrArg some (recover_of_found found')⟩

/-- What a state finds before it falls back on recovery. -/
def direct (s : State) (tags : Option (List Tag)) (c : Cursor) : Option Token :=
  (read? s.expectation s.mode (fun t => !true || s.next? t == some s) tags c).getLeft?

theorem read_of_found {s : State} (regular : s ≠ .recovery) (found : direct s tags c = some token) :
    read s true tags c = token := by
  simp only [read, if_neg regular, Sum.getLeft?_eq_some_iff.mp found]

theorem read_of_stuck {s : State} (regular : s ≠ .recovery) (stuck : direct s tags c = none) :
    read s true tags c = recover tags c := by
  obtain ⟨places, right⟩ := Sum.isRight_iff.mp (Sum.getLeft?_eq_none_iff.mp stuck)
  simp only [read, if_neg regular, right]

/-- The token of a state outside of values is found again wherever a text repeats it. -/
theorem read_stable {s : State} {a : Terminal} (outer : s.mode.isOuter = true)
    (closed : commentsClosed c.rest = true) (terminal : (read s true tags c).terminal = some a) :
    Stable (fun c' => some (read s true tags c')) c (read s true tags c) := by
  by_cases regular : s = .recovery
  · simp only [read, if_pos regular] at terminal ⊢
    exact recover_stable closed terminal
  cases found : direct s tags c with
  | some token =>
    rw [read_of_found regular found]
    obtain ⟨k, n, here, again⟩ := read?_found outer closed found
    refine ⟨k, n, here, fun c' repeats => ?_⟩
    obtain ⟨agree, found'⟩ := again c' repeats
    exact ⟨agree, congrArg some (read_of_found regular found')⟩
  | none =>
    rw [read_of_stuck regular found] at terminal ⊢
    obtain ⟨k, n, here, again⟩ := recover_stable closed terminal
    refine ⟨k, n, here, fun c' repeats => ?_⟩
    obtain ⟨agree, same⟩ := again c' repeats
    refine ⟨agree, ?_⟩
    dsimp only
    rw [read_of_stuck regular (read?_none outer closed agree found)]
    exact same

end Token

end TemplateMarkup.Markup
