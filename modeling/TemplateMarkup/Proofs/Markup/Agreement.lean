import TemplateMarkup.Proofs.Markup.Effort

/-!
What a token depends on. Two texts that agree up to an equals sign give the same tokens up to it, as no
token looks beyond the sign for its own end. Comments, plain text, raw text and declarations run over
equals signs, but they have ends of their own.
-/
namespace TemplateMarkup.Markup

open Cursor

/-- The texts are the same, or they are the same up to and including an equals sign. -/
inductive Agree : Text → Text → Prop where
  | same (r : Text) : Agree r r
  | mark (u u' : Text) : Agree ('=' :: u) ('=' :: u')
  | cons (c : Char) {r r' : Text} (agree : Agree r r') : Agree (c :: r) (c :: r')

namespace Agree

variable {r r' : Text}

theorem head? (agree : Agree r r') : r.head? = r'.head? := by
  cases agree <;> rfl

theorem isEmpty (agree : Agree r r') : r.isEmpty = r'.isEmpty := by
  cases agree <;> rfl

theorem append (w : Text) (agree : Agree r r') : Agree (w ++ r) (w ++ r') := by
  induction w with
  | nil => exact agree
  | cons c w ih => exact ih.cons c

theorem take (n : Nat) (agree : Agree r r') : Agree (r.take n) (r'.take n) := by
  induction agree generalizing n with
  | same r => exact .same _
  | mark u u' =>
    cases n with
    | zero => exact .same _
    | succ n => exact .mark _ _
  | cons c _ ih =>
    cases n with
    | zero => exact .same _
    | succ n => exact (ih n).cons c

theorem takeWhile {p : Char → Bool} (stops : p '=' = false) (agree : Agree r r') :
    r.takeWhile p = r'.takeWhile p := by
  induction agree with
  | same r => rfl
  | mark u u' => simp [stops]
  | cons c _ ih => rw [List.takeWhile_cons, List.takeWhile_cons, ih]

theorem takeWhile_before {p : Char → Bool} (agree : Agree r r')
    (before : ∀ c ∈ r.takeWhile p, c ≠ '=') : r.takeWhile p = r'.takeWhile p := by
  induction agree with
  | same r => rfl
  | mark u u' =>
    have stops : p '=' = false :=
      Bool.eq_false_iff.mpr fun passes => before '=' (by simp [passes]) rfl
    simp [stops]
  | cons c _ ih =>
    rw [List.takeWhile_cons, List.takeWhile_cons]
    split
    · rename_i passes
      rw [ih fun d member => before d (by simp [passes, member])]
    · rfl

theorem drop {n : Nat} (agree : Agree r r') (before : ∀ c ∈ r.take n, c ≠ '=') :
    Agree (r.drop n) (r'.drop n) := by
  induction agree generalizing n with
  | same r => exact .same _
  | mark u u' =>
    cases n with
    | zero => exact .mark u u'
    | succ n => exact absurd rfl (before '=' (by simp))
  | cons c agree ih =>
    cases n with
    | zero => exact agree.cons c
    | succ n => exact ih fun d member => before d (by simp [member])

end Agree

/-- The texts have their first characters in common, so many of them, and agree after these. -/
structure Follow (r r' : Text) (n : Nat) : Prop where
  same : r.take n = r'.take n
  agree : Agree (r.drop n) (r'.drop n)

section Follow

variable {r r' : Text}

theorem Follow.whole {n : Nat} (follow : Follow r r' n) : Agree r r' := by
  have whole := follow.agree.append (r.take n)
  rwa [List.take_append_drop, follow.same, List.take_append_drop] at whole

theorem Follow.drop {k n : Nat} (follow : Follow r r' (k + n)) : Follow (r.drop k) (r'.drop k) n := by
  constructor
  · have same := congrArg (List.drop k) follow.same
    rwa [List.drop_take, List.drop_take, Nat.add_sub_cancel_left] at same
  · simpa only [List.drop_drop] using follow.agree

theorem Follow.of_drop {n : Nat} (same : r.take n = r'.take n) (agree : Agree (r.drop n) (r'.drop n)) :
    Agree r r' := Follow.whole ⟨same, agree⟩

theorem Agree.nil {r : Text} (agree : Agree [] r) : r = [] := by
  cases agree
  rfl

theorem Follow.of_append {n : Nat} {u : Text} (agree : Agree (r.drop n) u) :
    Follow r (r.take n ++ u) n := by
  rcases Nat.le_total n r.length with less | more
  · have size : (r.take n).length = n := List.length_take_of_le less
    exact ⟨by rw [List.take_left' size], by rwa [List.drop_left' size]⟩
  · rw [List.drop_eq_nil_of_le more] at agree
    rw [agree.nil, List.append_nil, List.take_of_length_le more]
    exact ⟨rfl, .same _⟩

def blanks (r : Text) : Nat := (r.takeWhile isMarkupBlank).length

theorem blanks_agree (agree : Agree r r') :
    blanks r' = blanks r ∧ Agree (r.drop (blanks r)) (r'.drop (blanks r)) := by
  refine ⟨by rw [blanks, blanks, agree.takeWhile rfl], agree.drop ?_⟩
  rintro c member rfl
  rw [blanks, ← List.prefix_iff_eq_take.mp (List.takeWhile_prefix _)] at member
  exact absurd (List.all_eq_true.mp List.all_takeWhile '=' member) (by decide)

end Follow

namespace Lexeme

variable {r r' : Text}

theorem runLength_agree {p : Char → Bool} (stops : p '=' = false) (most : Nat) (agree : Agree r r') :
    runLength p most r = runLength p most r' := by
  rw [runLength, runLength, (agree.take most).takeWhile stops]

theorem drop_runLength_agree {p : Char → Bool} (stops : p '=' = false) (most : Nat)
    (agree : Agree r r') :
    Agree (r.drop (runLength p most r)) (r'.drop (runLength p most r')) := by
  rw [← runLength_agree stops most agree]
  refine agree.drop fun c member => ?_
  rintro rfl
  have lead : r.take (runLength p most r) = (r.take most).takeWhile p :=
    (List.prefix_iff_eq_take.mp ((List.takeWhile_prefix p).trans (List.take_prefix most r))).symm
  rw [lead] at member
  have holds := List.all_eq_true.mp List.all_takeWhile _ member
  rw [stops] at holds
  cases holds

theorem closeEntity_agree {p : Char → Bool} (stops : p '=' = false) (lead most : Nat)
    (agree : Agree r r') :
    closeEntity lead (runLength p most r) r = closeEntity lead (runLength p most r') r' := by
  have next := (drop_runLength_agree stops most agree).head?
  rw [closeEntity, closeEntity, next, runLength_agree stops most agree]

theorem entity_agree (agree : Agree r r') : entity r = entity r' := by
  have named := closeEntity_agree (p := Char.isAlpha) rfl 1 30 agree
  cases agree with
  | same => rfl
  | mark u u' => exact named
  | cons c agree =>
    have numbered := closeEntity_agree (p := Char.isDigit) rfl 2 5 agree
    cases agree with
    | same => rfl
    | mark u u' =>
      unfold entity
      grind
    | cons d agree =>
      have hexadecimal := closeEntity_agree (p := isHexDigit) rfl 3 6 agree
      by_cases number : c = '#'
      · subst number
        unfold entity
        grind
      · unfold entity
        grind

theorem sharedLead_agree (w : Text) (other : ∀ c ∈ w, c.toLower ≠ '=') (agree : Agree r r') :
    sharedLead w r = sharedLead w r' := by
  induction agree generalizing w with
  | same => rfl
  | mark u u' =>
    cases w with
    | nil => rfl
    | cons c w =>
      have differs : c.toLower ≠ '='.toLower := other c (by simp)
      rw [sharedLead, sharedLead, if_neg differs, if_neg differs]
  | cons d _ ih =>
    cases w with
    | nil => rfl
    | cons c w => rw [sharedLead, sharedLead, ih w fun e member => other e (by simp [member])]

theorem angle_agree (agree : Agree r r') : angle r = angle r' := by
  cases agree with
  | same => rfl
  | mark u u' => rfl
  | cons c agree =>
    unfold angle
    grind

theorem selfClose_agree (agree : Agree r r') : selfClose r = selfClose r' := by
  cases agree with
  | same => rfl
  | mark u u' => rfl
  | cons c agree =>
    unfold selfClose
    grind

theorem doctypeWord_agree (agree : Agree r r') : doctypeWord r = doctypeWord r' := by
  have letters : "doctype".toList.all (fun c => c.toLower != '=') = true := by decide
  have other : ∀ c ∈ "doctype".toList, c.toLower ≠ '=' :=
    fun c member => bne_iff_ne.mp (List.all_eq_true.mp letters c member)
  rw [doctypeWord, doctypeWord, sharedLead_agree _ other agree]

theorem run_agree {p : Char → Bool} (token : Terminal) (stops : p '=' = false) (agree : Agree r r') :
    run token p r = run token p r' := by
  rw [run, run, agree.takeWhile stops]

theorem recovery_agree (agree : Agree r r') : recovery r = recovery r' := by
  cases agree with
  | same => rfl
  | mark u u' => rfl
  | cons c agree =>
    have angle := angle_agree agree
    have selfClose := selfClose_agree agree
    have entity := entity_agree agree
    have word := doctypeWord_agree (agree.cons c)
    unfold recovery
    grind

theorem tag_agree (agree : Agree r r') : tag r = tag r' := by
  have name := run_agree (p := isNameChar) .attributeName rfl agree
  cases agree with
  | same => rfl
  | mark u u' => rfl
  | cons c agree =>
    have selfClose := selfClose_agree agree
    by_cases opens : c = '<'
    · subst opens
      unfold tag
      cases agree <;> grind
    · unfold tag
      grind

/-- A run ends where the next character is not one of its own. -/
theorem run_found_iff (token : Terminal) (p : Char → Bool) {a : Terminal} {w : Text} :
    run token p (w ++ r) = .found a w.length ↔
      a = token ∧ w ≠ [] ∧ (∀ c ∈ w, p c = true) ∧ ∀ c ∈ r.head?, p c = false := by
  constructor
  · intro lexed
    have token := run_token lexed
    have filled := run_filled lexed
    unfold run at lexed
    split at lexed
    · cases lexed
    · rename_i n size
      have length : ((w ++ r).takeWhile p).length = w.length := by
        rw [size]
        injection lexed
      have lead : (w ++ r).takeWhile p = w := by
        rw [List.prefix_iff_eq_take.mp (List.takeWhile_prefix p), length, List.take_left]
      have holds : ∀ c ∈ w, p c = true := by
        rw [← lead]
        exact fun c member => List.all_eq_true.mp List.all_takeWhile c member
      refine ⟨token, by simpa using filled.1, holds, fun c head => ?_⟩
      rw [List.takeWhile_append_of_pos holds] at lead
      have stops : r.takeWhile p = [] := by simpa using lead
      obtain ⟨rest, rfl⟩ := List.head?_eq_some_iff.mp head
      exact Bool.eq_false_iff.mpr fun passes => by simp [passes] at stops
  · rintro ⟨rfl, filled, holds, stops⟩
    have lead : (w ++ r).takeWhile p = w := by
      rw [List.takeWhile_append_of_pos holds]
      cases r with
      | nil => simp
      | cons c r => simp [stops c rfl]
    obtain ⟨n, size⟩ := Nat.exists_eq_succ_of_ne_zero (mt List.length_eq_zero_iff.mp filled)
    unfold run
    rw [lead, size]

theorem run_stuck_iff {token : Terminal} {p : Char → Bool} {n : Nat} :
    run token p r = .stuck n ↔ n = 0 ∧ ∀ c ∈ r.head?, p c = false := by
  unfold run
  cases r with
  | nil => exact ⟨fun stuck => by cases stuck; simp, fun stuck => by rw [stuck.1]; rfl⟩
  | cons c r =>
    cases passes : p c with
    | false =>
      rw [List.takeWhile_cons, if_neg (by simp [passes])]
      exact ⟨fun stuck => by cases stuck; simp [passes], fun stuck => by rw [stuck.1]; rfl⟩
    | true => simp [passes]

/-- Plain text ends before a markup character or before blanks that come before one. -/
theorem text_agree {w : Text} {a : Terminal} (agree : Agree r r')
    (lexed : text (w ++ r) = .found a w.length) : text (w ++ r') = .found a w.length := by
  rw [← lexed]
  -- the run of text characters is the token and blanks, which hold no equals sign
  have size : (((w ++ r).takeWhile isTextChar).reverse.dropWhile isMarkupBlank).length = w.length := by
    unfold text at lexed
    split at lexed
    · cases lexed
    · rename_i n size
      rw [size]
      injection lexed
  have parts := List.takeWhile_append_dropWhile (p := isMarkupBlank)
    (l := ((w ++ r).takeWhile isTextChar).reverse)
  have run : (w ++ r).takeWhile isTextChar =
      (((w ++ r).takeWhile isTextChar).reverse.dropWhile isMarkupBlank).reverse ++
        (((w ++ r).takeWhile isTextChar).reverse.takeWhile isMarkupBlank).reverse := by
    rw [← List.reverse_append, parts, List.reverse_reverse]
  have lead : (((w ++ r).takeWhile isTextChar).reverse.dropWhile isMarkupBlank).reverse = w := by
    have start := List.prefix_iff_eq_take.mp
      (List.IsPrefix.trans ⟨_, run.symm⟩ (List.takeWhile_prefix isTextChar))
    rwa [List.length_reverse, size, List.take_left] at start
  rw [lead] at run
  have holds : ∀ c ∈ w, isTextChar c = true := by
    intro c member
    have inside : c ∈ (w ++ r).takeWhile isTextChar := by
      rw [run]
      exact List.mem_append_left _ member
    exact List.all_eq_true.mp List.all_takeWhile c inside
  have blanks : ∀ c ∈ r.takeWhile isTextChar, c ≠ '=' := by
    intro c member
    rw [List.takeWhile_append_of_pos holds, List.append_cancel_left_eq] at run
    rw [run, List.mem_reverse] at member
    have blank := List.all_eq_true.mp List.all_takeWhile c member
    rintro rfl
    exact absurd blank (by decide)
  unfold text
  rw [List.takeWhile_append_of_pos holds, List.takeWhile_append_of_pos holds,
    agree.takeWhile_before blanks]

theorem text_stuck {n : Nat} (agree : Agree r r') (stuck : text r = .stuck n) :
    text r' = .stuck n := by
  have blanks : ∀ c ∈ r.takeWhile isTextChar, c ≠ '=' := by
    have none : (r.takeWhile isTextChar).reverse.dropWhile isMarkupBlank = [] := by
      unfold text at stuck
      split at stuck
      · exact List.length_eq_zero_iff.mp (by assumption)
      · cases stuck
    have parts := List.takeWhile_append_dropWhile (p := isMarkupBlank)
      (l := (r.takeWhile isTextChar).reverse)
    rw [none, List.append_nil] at parts
    rintro c member rfl
    rw [← List.mem_reverse, ← parts] at member
    exact absurd (List.all_eq_true.mp List.all_takeWhile '=' member) (by decide)
  rw [← stuck]
  unfold text
  rw [agree.takeWhile_before blanks]

theorem text_bound {a : Terminal} {n : Nat} (lexed : text r = .found a n) : n ≤ r.length := by
  unfold text at lexed
  split at lexed
  · cases lexed
  · rename_i size
    cases lexed
    have inner := (List.dropWhile_suffix (l := (r.takeWhile isTextChar).reverse) isMarkupBlank).length_le
    have outer := (List.takeWhile_prefix (l := r) isTextChar).length_le
    rw [List.length_reverse] at inner
    exact Nat.le_trans (Nat.le_of_eq size.symm) (Nat.le_trans inner outer)

theorem text_follow {a : Terminal} {n : Nat} (lexed : text r = .found a n) (follow : Follow r r' n) :
    text r' = .found a n := by
  have size : (r.take n).length = n := List.length_take_of_le (text_bound lexed)
  have again := text_agree (w := r.take n) (a := a) follow.agree
  rw [List.take_append_drop, follow.same, List.take_append_drop, ← follow.same, size] at again
  exact again lexed

theorem run_bound {token a : Terminal} {p : Char → Bool} {n : Nat}
    (lexed : run token p r = .found a n) : n ≤ r.length := by
  unfold run at lexed
  split at lexed
  · cases lexed
  · rename_i size
    cases lexed
    exact Nat.le_trans (Nat.le_of_eq size.symm) (List.takeWhile_prefix (l := r) p).length_le

theorem run_parts {token a : Terminal} {p : Char → Bool} {n : Nat}
    (lexed : run token p r = .found a n) :
    a = token ∧ r.take n ≠ [] ∧ (∀ c ∈ r.take n, p c = true) ∧ ∀ c ∈ (r.drop n).head?, p c = false := by
  have parts := run_found_iff token p (r := r.drop n) (a := a) (w := r.take n)
  rw [List.take_append_drop, List.length_take_of_le (run_bound lexed)] at parts
  exact parts.mp lexed

theorem run_follow {token a : Terminal} {p : Char → Bool} {n : Nat}
    (lexed : run token p r = .found a n) (follow : Follow r r' n) : run token p r' = .found a n := by
  have again := run_found_iff token p (r := r'.drop n) (a := a) (w := r.take n)
  rw [follow.same, List.take_append_drop, ← follow.same, List.length_take_of_le (run_bound lexed),
    ← follow.agree.head?] at again
  exact again.mpr (run_parts lexed)

theorem nodes_plain {c : Char} (angle : c ≠ '<') (entity : c ≠ '&') (r : Text) :
    nodes (c :: r) = text (c :: r) := by
  unfold nodes
  grind

/-- Two texts that agree give the same lexeme among nodes if they do as plain text. -/
theorem nodes_same {l : Lexeme} (agree : Agree r r') (plain : text r = l → text r' = l)
    (lexed : nodes r = l) : nodes r' = l := by
  cases agree with
  | same => exact lexed
  | mark u u' => exact plain lexed
  | cons c agree =>
    by_cases angle : c = '<'
    · subst angle
      exact (angle_agree agree).symm.trans lexed
    by_cases entity : c = '&'
    · subst entity
      exact (entity_agree agree).symm.trans lexed
    rw [nodes_plain angle entity] at lexed ⊢
    exact plain lexed

end Lexeme

namespace Mode

def isOuter : Mode → Bool
  | value | quoted _ => false
  | _ => true

variable {m : Mode} {r r' : Text}

theorem lexeme_stuck {n : Nat} (outer : m.isOuter = true) (agree : Agree r r')
    (stuck : m.lexeme r = .stuck n) : m.lexeme r' = .stuck n := by
  cases m with
  | recovery => exact (Lexeme.recovery_agree agree).symm.trans stuck
  | nodes => exact Lexeme.nodes_same agree (Lexeme.text_stuck agree) stuck
  | tag => exact (Lexeme.tag_agree agree).symm.trans stuck
  | value => cases outer
  | quoted q => cases outer
  | declaration =>
    rw [lexeme, Lexeme.declaration, Lexeme.run_stuck_iff] at stuck ⊢
    exact agree.head? ▸ stuck

theorem lexeme_equals {n : Nat} (found : m.lexeme r = .found .equals n) :
    n = 1 ∧ r.head? = some '=' ∧ ∀ u, m.lexeme ('=' :: u) = .found .equals 1 := by
  cases m <;> simp only [lexeme] at found
  case recovery =>
    unfold Lexeme.recovery at found
    split at found
    case h_2 => rcases Lexeme.angle_token found with same | same | same <;> cases same
    case h_4 => cases Lexeme.selfClose_token found
    case h_5 =>
      cases found
      exact ⟨rfl, rfl, fun _ => rfl⟩
    case h_6 => cases Lexeme.entity_token found
    case h_9 => cases Lexeme.doctypeWord_token found
    all_goals cases found
  case nodes =>
    unfold Lexeme.nodes at found
    split at found
    case h_2 => rcases Lexeme.angle_token found with same | same | same <;> cases same
    case h_3 => cases Lexeme.entity_token found
    case h_4 => cases Lexeme.text_token found
    all_goals cases found
  case tag =>
    unfold Lexeme.tag at found
    split at found
    case h_2 => cases Lexeme.selfClose_token found
    case h_3 =>
      cases found
      exact ⟨rfl, rfl, fun _ => rfl⟩
    case h_6 => cases Lexeme.run_token found
    all_goals cases found
  case value =>
    unfold Lexeme.value at found
    split at found
    case h_3 => cases Lexeme.run_token found
    all_goals cases found
  case quoted q =>
    unfold Lexeme.quoted at found
    split at found
    case h_2 | h_4 => cases Lexeme.run_token found
    all_goals cases found
  case declaration => cases Lexeme.run_token found

/-- A token outside of values is found again in a text that has its characters too and agrees after
them, which it need not do after an equals sign. -/
theorem lexeme_found {a : Terminal} {n : Nat} (outer : m.isOuter = true)
    (found : m.lexeme r = .found a n) (same : r.take n = r'.take n)
    (agree : a ≠ .equals → Agree (r.drop n) (r'.drop n)) :
    Agree r r' ∧ m.lexeme r' = .found a n := by
  by_cases equals : a = .equals
  · subst equals
    obtain ⟨rfl, head, again⟩ := lexeme_equals found
    obtain ⟨u, rfl⟩ := List.head?_eq_some_iff.mp head
    obtain ⟨u', rfl⟩ : ∃ u', r' = '=' :: u' := by
      cases r' with
      | nil => cases same
      | cons c u' =>
        cases same
        exact ⟨u', rfl⟩
    exact ⟨.mark u u', again u'⟩
  have follow : Follow r r' n := ⟨same, agree equals⟩
  refine ⟨follow.whole, ?_⟩
  cases m with
  | recovery => exact (Lexeme.recovery_agree follow.whole).symm.trans found
  | nodes => exact Lexeme.nodes_same follow.whole (fun lexed => Lexeme.text_follow lexed follow) found
  | tag => exact (Lexeme.tag_agree follow.whole).symm.trans found
  | value => cases outer
  | quoted q => cases outer
  | declaration => exact Lexeme.run_follow found follow

def lead (m : Mode) (r : Text) : Nat := if m.skipsBlanks then blanks r else 0

theorem lead_agree (m : Mode) (agree : Agree r r') :
    m.lead r' = m.lead r ∧ Agree (r.drop (m.lead r)) (r'.drop (m.lead r)) := by
  unfold lead
  split
  · exact blanks_agree agree
  · exact ⟨rfl, agree⟩

def placed (start : Cursor) : Lexeme → Reading
  | .found a n => .found a start (start.skip n)
  | .stuck n => .stuck start (start.skip n)

theorem read_eq (m : Mode) (c : Cursor) :
    m.read c = placed (c.skip (m.lead c.rest)) (m.lexeme (c.rest.drop (m.lead c.rest))) := by
  unfold read lead placed
  split <;> rfl

variable {c c' start stop : Cursor}

theorem read_found {a : Terminal} (outer : m.isOuter = true) (found : m.read c = .found a start stop) :
    ∃ k n, start = c.skip k ∧ stop = (c.skip k).skip n ∧ ∀ (c' : Cursor) (u : Text),
      c'.rest = c.rest.take (k + n) ++ u → (a ≠ .equals → Agree (c.rest.drop (k + n)) u) →
      Agree c.rest c'.rest ∧ m.read c' = .found a (c'.skip k) ((c'.skip k).skip n) := by
  rw [read_eq] at found
  cases lexed : m.lexeme (c.rest.drop (m.lead c.rest)) with
  | stuck n =>
    rw [lexed] at found
    cases found
  | found b n =>
    rw [lexed] at found
    cases found
    refine ⟨m.lead c.rest, n, rfl, rfl, ?_⟩
    intro c' u rest agree
    have same : c.rest.take (m.lead c.rest + n) = c'.rest.take (m.lead c.rest + n) := by
      by_cases equals : a = .equals
      · subst equals
        obtain ⟨rfl, head, -⟩ := lexeme_equals lexed
        have size : (c.rest.take (m.lead c.rest + 1)).length = m.lead c.rest + 1 := by
          refine List.length_take_of_le ?_
          obtain ⟨t, after⟩ := List.head?_eq_some_iff.mp head
          have length := congrArg List.length after
          rw [List.length_drop, List.length_cons] at length
          omega
        rw [rest, List.take_left' size]
      · exact rest ▸ (Follow.of_append (agree equals)).same
    have after : a ≠ .equals → Agree (c.rest.drop (m.lead c.rest + n)) (c'.rest.drop (m.lead c.rest + n)) :=
      fun other => rest ▸ (Follow.of_append (agree other)).agree
    have lead : c.rest.take (m.lead c.rest) = c'.rest.take (m.lead c.rest) := by
      have both := congrArg (List.take (m.lead c.rest)) same
      rwa [List.take_take, List.take_take, Nat.min_eq_left (Nat.le_add_right _ _)] at both
    have body : (c.rest.drop (m.lead c.rest)).take n = (c'.rest.drop (m.lead c.rest)).take n := by
      have both := congrArg (List.drop (m.lead c.rest)) same
      rwa [List.drop_take, List.drop_take, Nat.add_sub_cancel_left] at both
    obtain ⟨left, again⟩ := lexeme_found outer lexed body
      (by simpa only [List.drop_drop] using after)
    have whole := Follow.of_drop lead left
    refine ⟨whole, ?_⟩
    rw [read_eq, (lead_agree m whole).1, again]
    rfl

theorem read_stuck (outer : m.isOuter = true) (agree : Agree c.rest c'.rest)
    (stuck : m.read c = .stuck start stop) : ∃ start' stop', m.read c' = .stuck start' stop' := by
  rw [read_eq] at stuck
  cases lexed : m.lexeme (c.rest.drop (m.lead c.rest)) with
  | found a n =>
    rw [lexed] at stuck
    cases stuck
  | stuck n =>
    obtain ⟨lead, rest⟩ := lead_agree m agree
    rw [read_eq, lead, lexeme_stuck outer rest lexed]
    exact ⟨_, _, rfl⟩

end Mode

end TemplateMarkup.Markup
