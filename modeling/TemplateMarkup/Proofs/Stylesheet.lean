import TemplateMarkup.ClassName.Basic
import TemplateMarkup.Proofs.Blanks
import TemplateMarkup.Proofs.Order
import TemplateMarkup.Stylesheet

/-!
Stylesheets written for given class names: one rule for each name, with backslashes before the characters
that are not plain. Reading such a stylesheet gives the names back, because a class name holds none of the
characters at which the reader would stop: no brace, semicolon or star, no blank, and no digit at its
start.
-/
namespace TemplateMarkup

theorem Text.removeDelimited_absent {t : Text} (absent : '*' ∉ t) :
    Text.removeDelimited "/*" "*/" t = t := by
  have opens : ∀ t : Text, '*' ∉ t → Text.stripLead? "/*".toList t = none := by
    intro t absent
    cases lead : Text.stripLead? "/*".toList t with
    | none => rfl
    | some rest =>
      rw [Text.stripLead?_eq_some_iff.mp lead] at absent
      simp at absent
  have kept : ∀ fuel t, '*' ∉ t → Text.removeDelimitedFrom "/*" "*/" fuel t = t := by
    intro fuel
    induction fuel with
    | zero =>
      intro t _
      cases t <;> rfl
    | succ fuel ih =>
      intro t absent
      cases t with
      | nil => rfl
      | cons c t =>
        rw [Text.removeDelimitedFrom, opens _ absent]
        simp only [Option.bind_none]
        rw [ih t fun star => absent (List.mem_cons_of_mem _ star)]
  exact kept _ t absent

namespace ClassName

/-- A valid name that is one word, as names in templates are. -/
structure IsToken (n : Text) : Prop where
  valid : isValid n = true
  solid : ∀ c ∈ n, isBlank c = false

theorem isValid_head {n : Text} (valid : isValid n = true) :
    ∃ c rest, n = c :: rest ∧ c.isDigit = false := by
  cases n with
  | nil => cases valid
  | cons c rest =>
    simp only [isValid, Bool.and_eq_true, Bool.not_eq_true', Bool.or_eq_false_iff] at valid
    exact ⟨c, rest, rfl, valid.1.1.1.1.1.2⟩

theorem isValid_allowed {n : Text} (valid : isValid n = true) : ∀ c ∈ n, isForbidden c = false := by
  cases n with
  | nil => cases valid
  | cons first rest =>
    simp only [isValid, Bool.and_eq_true, Bool.not_eq_true', List.any_eq_false] at valid
    intro c member
    simpa using valid.1.1.1.1.2 c member

end ClassName

namespace Stylesheet

variable {n : Text} {names : List Text}

/-- A class name as selectors write it: a backslash stands before each character that is not plain. -/
def escape (n : Text) : Text := n.flatMap fun c => if isNameChar c then [c] else ['\\', c]

def rule (n : Text) : Text := '.' :: escape n ++ " \x7b \x7d\n".toList

def rules (names : List Text) : Text := names.flatMap rule

theorem mem_escape {c : Char} (member : c ∈ escape n) : c ∈ n ∨ c = '\\' := by
  obtain ⟨d, listed, inside⟩ := List.mem_flatMap.mp member
  split at inside
  · rw [List.mem_singleton.mp inside]
    exact Or.inl listed
  · rcases List.mem_cons.mp inside with rfl | inside
    · exact Or.inr rfl
    · rw [List.mem_singleton.mp inside]
      exact Or.inl listed

theorem escape_cons (c : Char) (n : Text) :
    escape (c :: n) = (if isNameChar c then [c] else ['\\', c]) ++ escape n := List.flatMap_cons

theorem name_escape (oneLine : '\n' ∉ n) : name (escape n) = (n, []) := by
  induction n with
  | nil => rfl
  | cons c n ih =>
    rw [List.mem_cons, not_or] at oneLine
    have rest := ih oneLine.2
    rw [escape_cons]
    by_cases plain : isNameChar c = true
    · have other : c ≠ '\\' := by
        rintro rfl
        exact absurd plain (by decide)
      rw [if_pos plain, List.singleton_append, name]
      · rw [if_pos plain, rest]
      · intro d t same _
        exact other same
    · rw [if_neg plain, List.cons_append, List.singleton_append, name, if_neg (Ne.symm oneLine.1), rest]

theorem escape_last {c : Char} (last : n.getLast? = some c) : (escape n).getLast? = some c := by
  obtain ⟨start, rfl⟩ := List.getLast?_eq_some_iff.mp last
  rw [escape, List.flatMap_append, List.flatMap_singleton]
  by_cases plain : isNameChar c = true <;> simp [plain]

theorem namesOfHead_rule (token : ClassName.IsToken n) (before : Text)
    (blank : ∀ c ∈ before, isBlank c = true) : namesOfHead (before ++ '.' :: escape n ++ [' ']) = [n] := by
  obtain ⟨c, rest, rfl, letter⟩ := ClassName.isValid_head token.valid
  have oneLine : '\n' ∉ c :: rest := fun member => absurd (token.solid _ member) (by decide)
  have last := List.getLast?_eq_some_getLast (List.cons_ne_nil c rest)
  have trimmed : Text.trim (before ++ '.' :: escape (c :: rest) ++ [' ']) = '.' :: escape (c :: rest) := by
    refine Text.trim_around rfl ?_ ⟨by decide, token.solid _ (List.getLast_mem (List.cons_ne_nil c rest))⟩ blank ?_
    · rw [List.getLast?_cons, escape_last last]
      rfl
    · intro d member
      rw [List.mem_singleton.mp member]
      decide
  have read : namesFrom (('.' :: escape (c :: rest)).length + 1) ('.' :: escape (c :: rest)) =
      [c :: rest] := by
    rw [namesFrom, if_pos rfl, name_escape oneLine]
    rfl
  unfold namesOfHead
  dsimp only
  rw [trimmed, if_neg (by simp [Text.startsWith, Text.stripLead?]), read]
  simp [letter]

theorem headsFrom_plain (run : Text) {s : Text} (rest : Text)
    (plain : ∀ c ∈ s, c ≠ '\x7b' ∧ c ≠ '\x7d' ∧ c ≠ ';') :
    headsFrom run (s ++ rest) = headsFrom (s.reverse ++ run) rest := by
  induction s generalizing run with
  | nil => rfl
  | cons c s ih =>
    obtain ⟨opening, closing, semicolon⟩ := plain c (List.mem_cons_self ..)
    rw [List.cons_append, headsFrom, if_neg opening, if_neg (by simp [closing, semicolon]),
      ih _ fun d member => plain d (List.mem_cons_of_mem _ member)]
    simp

/-- The characters of a rule before its brace end no head and start no comment. -/
theorem escape_plain (token : ClassName.IsToken n) :
    ∀ c ∈ escape n, c ≠ '\x7b' ∧ c ≠ '\x7d' ∧ c ≠ ';' ∧ c ≠ '*' := by
  intro c member
  rcases mem_escape member with inside | rfl
  · have allowed := ClassName.isValid_allowed token.valid c inside
    refine ⟨?_, ?_, ?_, ?_⟩ <;>
      · rintro rfl
        exact absurd allowed (by decide)
  · decide

theorem headsFrom_rule (token : ClassName.IsToken n) (run rest : Text) :
    headsFrom run (rule n ++ rest) =
      (run.reverse ++ '.' :: escape n ++ [' ']) :: headsFrom ['\n'] rest := by
  have split : rule n ++ rest = ('.' :: escape n ++ [' ']) ++ ('\x7b' :: ' ' :: '\x7d' :: '\n' :: rest) := by
    simp [rule]
  have plain : ∀ c ∈ '.' :: escape n ++ [' '], c ≠ '\x7b' ∧ c ≠ '\x7d' ∧ c ≠ ';' := by
    intro c member
    rcases List.mem_append.mp member with name | space
    · rcases List.mem_cons.mp name with rfl | name
      · decide
      · obtain ⟨opening, closing, semicolon, -⟩ := escape_plain token c name
        exact ⟨opening, closing, semicolon⟩
    · rw [List.mem_singleton.mp space]
      decide
  rw [split, headsFrom_plain run _ plain]
  simp [headsFrom]

/-- The heads of the rules define the classes, one after another. -/
theorem names_of_rules (tokens : ∀ n ∈ names, ClassName.IsToken n) (run : Text)
    (blank : ∀ c ∈ run, isBlank c = true) : (headsFrom run (rules names)).flatMap namesOfHead = names := by
  induction names generalizing run with
  | nil => rfl
  | cons n names ih =>
    have token := tokens n (List.mem_cons_self ..)
    have first := namesOfHead_rule token run.reverse fun c member =>
      blank c (List.mem_reverse.mp member)
    have rest := ih (fun m member => tokens m (List.mem_cons_of_mem _ member)) ['\n']
      (List.forall_mem_singleton.mpr (by decide))
    rw [rules, List.flatMap_cons, headsFrom_rule token, List.flatMap_cons, first]
    exact congrArg (n :: ·) rest

theorem rules_no_star (tokens : ∀ n ∈ names, ClassName.IsToken n) : '*' ∉ rules names := by
  intro star
  obtain ⟨n, listed, inside⟩ := List.mem_flatMap.mp star
  rcases List.mem_append.mp inside with name | braces
  · rcases List.mem_cons.mp name with dot | name
    · exact absurd dot (by decide)
    · exact (escape_plain (tokens n listed) '*' name).2.2.2 rfl
  · exact absurd braces (by decide)

theorem definedClasses_rules (tokens : ∀ n ∈ names, ClassName.IsToken n) :
    definedClasses (rules names) = Text.sortDistinct names := by
  rw [definedClasses, Text.removeDelimited_absent (rules_no_star tokens),
    names_of_rules tokens [] (by simp)]

end Stylesheet

end TemplateMarkup
