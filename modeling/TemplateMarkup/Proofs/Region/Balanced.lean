import TemplateMarkup.Proofs.Region.Blocks

/-!
Blocks of code, told by their braces. The brace that closes a block is the first one before which braces
balance; the search for it fails only if there is none. From that follows which blocks a marker opens: those
at its occurrences, from the left, that stand outside of the blocks before them.
-/
namespace TemplateMarkup

namespace Text

variable {part t : Text} {n : Nat}

/-- The occurrences of a part in the text `t`, which stands at the offset `n`: the leftmost one, and then
those of what follows it. -/
inductive Leftmost (part : Text) : (n : Nat) → (t : Text) → List (Nat × Text) → Prop where
  | none {n : Nat} {t : Text} (absent : ∀ lead after, t ≠ lead ++ part ++ after) : Leftmost part n t []
  | next {n : Nat} (lead : Text) {after : Text} {found : List (Nat × Text)}
      (first : ∀ other tail, lead ++ part ++ after = other ++ part ++ tail → lead.length ≤ other.length)
      (later : Leftmost part (n + bytes lead + bytes part) after found) :
      Leftmost part n (lead ++ part ++ after) ((n + bytes lead, after) :: found)

theorem occurrencesFrom_skip (part passed t : Text) (n : Nat) :
    occurrencesFrom part passed.length n (passed ++ t) = occurrencesFrom part 0 (n + bytes passed) t := by
  induction passed generalizing n with
  | nil => rfl
  | cons c passed ih =>
    rw [List.length_cons, List.cons_append, occurrencesFrom, ih, bytes_cons, Nat.add_assoc]

/-- A character before which the part does not start goes to the text before its first occurrence. -/
theorem leftmost_cons {c : Char} {found : List (Nat × Text)}
    (differs : stripLead? part (c :: t) = none) (later : Leftmost part (n + c.utf8Size) t found) :
    Leftmost part n (c :: t) found := by
  have begins : ∀ other tail, c :: t = other ++ part ++ tail →
      ∃ shorter, other = c :: shorter ∧ t = shorter ++ part ++ tail := by
    intro other tail split
    cases other with
    | nil =>
      rw [List.nil_append] at split
      rw [stripLead?_eq_some_iff.mpr split] at differs
      cases differs
    | cons d shorter =>
      obtain ⟨rfl, rest⟩ := List.cons.inj split
      exact ⟨shorter, rfl, rest⟩
  cases later with
  | none absent =>
    refine Leftmost.none ?_
    intro lead after split
    obtain ⟨shorter, -, rest⟩ := begins lead after split
    exact absent shorter after rest
  | @next _ lead after found first later =>
    rw [Nat.add_assoc n, ← bytes_cons] at later ⊢
    refine Leftmost.next (c :: lead) ?_ later
    intro other tail split
    obtain ⟨shorter, rfl, rest⟩ := begins other tail split
    exact Nat.succ_le_succ (first shorter tail rest)

theorem occurrencesFrom_leftmost (given : part ≠ []) (n : Nat) (t : Text) :
    Leftmost part n t (occurrencesFrom part 0 n t) := by
  induction size : t.length using Nat.strongRecOn generalizing n t with
  | ind k ih =>
    cases t with
    | nil =>
      rw [occurrencesFrom, if_neg (by simp [given])]
      exact Leftmost.none (by simp [given])
    | cons c t =>
      rw [List.length_cons] at size
      rw [occurrencesFrom]
      split
      · rename_i after strip
        have split := stripLead?_eq_some_iff.mp strip
        obtain ⟨d, tail, rfl⟩ := List.exists_cons_of_ne_nil given
        rw [List.cons_append] at split
        obtain ⟨rfl, rfl⟩ := List.cons.inj split
        rw [List.length_append] at size
        have later := ih after.length (by omega) (n + bytes (c :: tail)) after rfl
        have skipped := occurrencesFrom_skip (c :: tail) tail after (n + c.utf8Size)
        rw [Nat.add_assoc, ← bytes_cons] at skipped
        rw [List.length_cons, Nat.add_sub_cancel, skipped]
        exact Leftmost.next [] (fun _ _ _ => Nat.zero_le _) later
      · rename_i differs
        exact leftmost_cons differs (ih t.length (by omega) _ t rfl)

theorem leftmost_split {found : List (Nat × Text)} (leftmost : Leftmost part n t found) :
    ∀ m ∈ found, ∃ lead, t = lead ++ part ++ m.2 ∧ m.1 = n + bytes lead := by
  induction leftmost with
  | none => simp
  | @next n lead after found first later ih =>
    intro m member
    rcases List.mem_cons.mp member with same | further
    · subst same
      exact ⟨lead, rfl, rfl⟩
    · obtain ⟨gap, rfl, start⟩ := ih m further
      exact ⟨lead ++ part ++ gap, by simp, by rw [start]; simp [Nat.add_assoc]⟩

theorem leftmost_ascending {found : List (Nat × Text)} (leftmost : Leftmost part n t found) :
    found.Pairwise fun a b => a.1 + bytes part ≤ b.1 := by
  induction leftmost with
  | none => exact List.Pairwise.nil
  | next lead first later ih =>
    refine List.pairwise_cons.mpr ⟨?_, ih⟩
    intro m member
    obtain ⟨gap, -, start⟩ := leftmost_split later m member
    rw [start]
    exact Nat.le_add_right _ _

end Text

namespace Region

open Text

variable {c : Char} {depth : Nat} {inside after marker t : Text}

/-- The text closes as many braces as it opens and `depth` more, and none of its beginnings closes more. -/
def Closes (depth : Nat) (inside : Text) : Prop :=
  inside.count '\x7d' = inside.count '\x7b' + depth ∧
    ∀ part, part <+: inside → part.count '\x7d' ≤ part.count '\x7b' + depth

/-- Braces balance, and no beginning of the text closes more of them than it opens. -/
def Balanced (inside : Text) : Prop :=
  inside.count '\x7b' = inside.count '\x7d' ∧
    ∀ part, part <+: inside → part.count '\x7d' ≤ part.count '\x7b'

theorem balanced_nil : Balanced [] := by
  refine ⟨rfl, ?_⟩
  intro part lead
  rw [List.prefix_nil.mp lead]
  exact Nat.le_refl _

theorem closes_zero : Closes 0 inside ↔ Balanced inside := by
  unfold Closes Balanced
  rw [Nat.add_zero, eq_comm]
  rfl

theorem forall_prefix_cons {p : Text → Prop} :
    (∀ part, part <+: c :: inside → p part) ↔ p [] ∧ ∀ part, part <+: inside → p (c :: part) := by
  constructor
  · intro every
    exact ⟨every [] (List.nil_prefix), fun part lead => every _ (List.cons_prefix_cons.mpr ⟨rfl, lead⟩)⟩
  · intro both part lead
    rcases List.prefix_cons_iff.mp lead with rfl | ⟨rest, rfl, shorter⟩
    · exact both.1
    · exact both.2 rest shorter

theorem closes_opening : Closes depth ('\x7b' :: inside) ↔ Closes (depth + 1) inside := by
  unfold Closes
  rw [forall_prefix_cons]
  simp [Nat.add_assoc, Nat.add_comm 1 depth]

theorem closes_closing : Closes (depth + 1) ('\x7d' :: inside) ↔ Closes depth inside := by
  unfold Closes
  rw [forall_prefix_cons]
  simp [← Nat.add_assoc]

theorem closes_other (opening : c ≠ '\x7b') (closing : c ≠ '\x7d') :
    Closes depth (c :: inside) ↔ Closes depth inside := by
  unfold Closes
  rw [forall_prefix_cons]
  simp [List.count_cons_of_ne opening, List.count_cons_of_ne closing]

theorem not_closes_closing : ¬Closes 0 ('\x7d' :: inside) := by
  intro closes
  have exceeds := closes.2 ['\x7d'] (by simp)
  exact absurd exceeds (by decide)

/-- The search for the brace that closes a block finds the first one before which braces balance. -/
theorem closeBrace_eq_some_iff :
    closeBrace depth t = some (inside, after) ↔ t = inside ++ '\x7d' :: after ∧ Closes depth inside := by
  induction t generalizing depth inside with
  | nil => simp [closeBrace]
  | cons c t ih =>
    -- a character in the block is its first one, and the rest is found as before
    have further : ∀ d, (∀ rest, Closes depth (c :: rest) ↔ Closes d rest) →
        (c = '\x7d' → ¬Closes depth []) →
        (((closeBrace d t).map fun x => (c :: x.1, x.2)) = some (inside, after) ↔
          c :: t = inside ++ '\x7d' :: after ∧ Closes depth inside) := by
      intro d same ends
      cases inside with
      | nil =>
        constructor
        · intro found
          obtain ⟨x, -, impossible⟩ := Option.map_eq_some_iff.mp found
          cases impossible
        · intro closed
          exact absurd closed.2 (ends (List.cons.inj closed.1).1)
      | cons b rest =>
        rw [Option.map_eq_some_iff]
        constructor
        · rintro ⟨⟨inner, tail⟩, found, same⟩
          cases same
          obtain ⟨split, closes⟩ := ih.mp found
          exact ⟨by rw [split]; rfl, (same _).mpr closes⟩
        · rintro ⟨split, closes⟩
          obtain ⟨rfl, rest_eq⟩ := List.cons.inj split
          exact ⟨(rest, after), ih.mpr ⟨rest_eq, (same rest).mp closes⟩, rfl⟩
    rw [closeBrace]
    by_cases opening : c = '\x7b'
    · subst opening
      rw [if_pos rfl]
      exact further (depth + 1) (fun _ => closes_opening) (fun same => absurd same (by decide))
    · rw [if_neg opening]
      by_cases closing : c = '\x7d'
      · subst closing
        rw [if_pos rfl]
        cases depth with
        | zero =>
          rw [if_pos rfl, Option.some.injEq, Prod.mk.injEq]
          constructor
          · rintro ⟨rfl, rfl⟩
            exact ⟨rfl, closes_zero.mpr balanced_nil⟩
          · rintro ⟨split, closes⟩
            cases inside with
            | nil => exact ⟨rfl, (List.cons.inj split).2⟩
            | cons b rest =>
              obtain ⟨rfl, -⟩ := List.cons.inj split
              exact absurd closes not_closes_closing
        | succ depth =>
          rw [if_neg (Nat.succ_ne_zero depth), Nat.add_sub_cancel]
          exact further depth (fun _ => closes_closing) (fun _ closes => absurd closes.1 (by simp))
      · rw [if_neg closing]
        exact further depth (fun _ => closes_other opening closing) (fun same => absurd same closing)

/-- A block after a marker: what comes before its brace and what it encloses. -/
theorem braced?_eq_some_iff_balanced {before : Text} :
    braced? t = some (before, inside) ↔
      ∃ rest, t = before ++ '\x7b' :: (inside ++ '\x7d' :: rest) ∧ '\x7b' ∉ before ∧ Balanced inside := by
  rw [braced?_eq_some_iff]
  constructor
  · rintro ⟨tail, rest, rfl, clear, closed⟩
    obtain ⟨rfl, closes⟩ := closeBrace_eq_some_iff.mp closed
    exact ⟨rest, rfl, clear, closes_zero.mp closes⟩
  · rintro ⟨rest, rfl, clear, balanced⟩
    exact ⟨_, rest, rfl, clear, closeBrace_eq_some_iff.mpr ⟨rfl, closes_zero.mpr balanced⟩⟩

/-- No brace is opened, or the first one that is opened is never closed. -/
def Unclosed (t : Text) : Prop :=
  '\x7b' ∉ t ∨ ∃ before rest, t = before ++ '\x7b' :: rest ∧ '\x7b' ∉ before ∧
    ∀ inside tail, rest = inside ++ '\x7d' :: tail → ¬Balanced inside

theorem unclosed_of_braced? (none : braced? t = none) : Unclosed t := by
  by_cases opened : '\x7b' ∈ t
  · obtain ⟨before, rest, rfl, clear⟩ := List.eq_append_cons_of_mem opened
    refine Or.inr ⟨before, rest, rfl, clear, ?_⟩
    rintro inside tail rfl balanced
    rw [braced?_eq_some_iff_balanced.mpr ⟨tail, rfl, clear, balanced⟩] at none
    cases none
  · exact Or.inl opened

def WordEnd (after : Text) : Prop := ∀ c ∈ after.head?, isLetterOrNumber c = false ∧ c ≠ '_'

theorem endsWord_iff : endsWord after ↔ WordEnd after := by
  cases after with
  | nil => simp [endsWord, WordEnd]
  | cons c rest => simp [endsWord, WordEnd]

/-- A block of the text: it goes from an occurrence of the marker as a word through the brace that closes
the first one after the marker. -/
inductive IsCode (marker t : Text) (found : List (Nat × Text)) : Region → Prop where
  | block {lead before inside after : Text}
      (text : t = lead ++ (marker ++ before ++ '\x7b' :: inside ++ ['\x7d']) ++ after)
      (listed : (bytes lead, before ++ '\x7b' :: (inside ++ '\x7d' :: after)) ∈ found)
      (word : WordEnd (before ++ '\x7b' :: (inside ++ '\x7d' :: after)))
      (first : '\x7b' ∉ before) (balanced : Balanced inside) :
      IsCode marker t found ⟨.code, trim inside,
        ⟨bytes lead, bytes (lead ++ (marker ++ before ++ '\x7b' :: inside ++ ['\x7d']))⟩⟩

section Markers

variable {found : List (Nat × Text)} {resume : Nat} {r : Region}

theorem ofMarker?_span {start : Nat} (region : ofMarker? marker start after = some r) :
    r.span.start = start ∧ start < r.span.stop := by
  obtain ⟨x, -, rfl⟩ := Option.map_eq_some_iff.mp region
  refine ⟨rfl, ?_⟩
  dsimp only
  omega

/-- A marker is passed over, or it opens a region that the next ones start after. -/
theorem ofMarkers_cons (marker : Text) (resume : Nat) (found : List (Nat × Text)) (start : Nat)
    (after : Text) :
    (ofMarkers marker resume ((start, after) :: found) = ofMarkers marker resume found ∧
        (resume ≤ start → braced? after = none)) ∨
      ∃ r, resume ≤ start ∧ ofMarker? marker start after = some r ∧
        ofMarkers marker resume ((start, after) :: found) = r :: ofMarkers marker r.span.stop found := by
  rw [ofMarkers]
  by_cases early : start < resume
  · rw [if_pos early]
    exact Or.inl ⟨rfl, fun late => absurd late (by omega)⟩
  · rw [if_neg early]
    cases region : ofMarker? marker start after with
    | none => exact Or.inl ⟨rfl, fun _ => Option.map_eq_none_iff.mp region⟩
    | some r => exact Or.inr ⟨r, by omega, rfl, rfl⟩

theorem ofMarkers_apart (resume : Nat) :
    (∀ r ∈ ofMarkers marker resume found, resume ≤ r.span.start) ∧
      (ofMarkers marker resume found).Pairwise fun a b => a.span.stop ≤ b.span.start := by
  induction found generalizing resume with
  | nil => exact ⟨by simp [ofMarkers], List.Pairwise.nil⟩
  | cons m found ih =>
    rcases ofMarkers_cons marker resume found m.1 m.2 with
      ⟨same, -⟩ | ⟨r, reached, region, same⟩
    · rw [same]
      exact ih resume
    · obtain ⟨start, positive⟩ := ofMarker?_span region
      obtain ⟨lower, apart⟩ := ih r.span.stop
      rw [same]
      refine ⟨?_, List.pairwise_cons.mpr ⟨lower, apart⟩⟩
      intro s member
      rcases List.mem_cons.mp member with here | further
      · subst here
        omega
      · have beyond := lower s further
        omega

theorem ofMarkers_sound (member : r ∈ ofMarkers marker resume found) :
    ∃ m ∈ found, ofMarker? marker m.1 m.2 = some r := by
  induction found generalizing resume with
  | nil => cases member
  | cons m found ih =>
    have later : ∀ resume, r ∈ ofMarkers marker resume found →
        ∃ m' ∈ m :: found, ofMarker? marker m'.1 m'.2 = some r := by
      intro resume member
      obtain ⟨m', listed, region⟩ := ih member
      exact ⟨m', List.mem_cons_of_mem _ listed, region⟩
    rcases ofMarkers_cons marker resume found m.1 m.2 with
      ⟨same, -⟩ | ⟨s, -, region, same⟩
    · rw [same] at member
      exact later _ member
    · rw [same] at member
      rcases List.mem_cons.mp member with here | further
      · subst here
        exact ⟨m, List.mem_cons_self .., region⟩
      · exact later _ further

/-- A marker outside of all regions opens no block. -/
theorem ofMarkers_complete (ascending : found.Pairwise fun a b => a.1 ≤ b.1) {m : Nat × Text}
    (listed : m ∈ found) (reached : resume ≤ m.1)
    (outside : ∀ r ∈ ofMarkers marker resume found, m.1 < r.span.start ∨ r.span.stop ≤ m.1) :
    braced? m.2 = none := by
  induction found generalizing resume with
  | nil => cases listed
  | cons first found ih =>
    obtain ⟨below, ascending⟩ := List.pairwise_cons.mp ascending
    rcases ofMarkers_cons marker resume found first.1 first.2 with
      ⟨same, none⟩ | ⟨r, -, region, same⟩
    · rw [same] at outside
      rcases List.mem_cons.mp listed with here | further
      · subst here
        exact none reached
      · exact ih ascending further reached outside
    · obtain ⟨start, positive⟩ := ofMarker?_span region
      rw [same] at outside
      obtain ⟨here, later⟩ := List.forall_mem_cons.mp outside
      rcases List.mem_cons.mp listed with same | further
      · subst same
        omega
      · have above := below m further
        exact ih ascending further (by omega) later

end Markers

theorem isCode_on {found : List (Nat × Text)} {r : Region} (code : IsCode marker t found r) :
    r.span.On t := by
  cases code with
  | block text listed word first balanced =>
    subst text
    refine ⟨by simp, ?_, boundary_bytes _ _⟩
    rw [List.append_assoc]
    exact boundary_bytes _ _

theorem isCode_of_ofMarker? {found : List (Nat × Text)} {r : Region} {m : Nat × Text}
    (leftmost : Leftmost marker 0 t found) (listed : m ∈ found) (word : endsWord m.2)
    (region : ofMarker? marker m.1 m.2 = some r) : IsCode marker t found r := by
  obtain ⟨start, after⟩ := m
  obtain ⟨⟨before, inside⟩, braced, rfl⟩ := Option.map_eq_some_iff.mp region
  obtain ⟨rest, rfl, clear, balanced⟩ := braced?_eq_some_iff_balanced.mp braced
  obtain ⟨lead, text, rfl⟩ := leftmost_split leftmost _ listed
  rw [Nat.zero_add] at listed ⊢
  have one : ('\x7b' : Char).utf8Size = 1 ∧ ('\x7d' : Char).utf8Size = 1 := by decide
  have whole : t = lead ++ (marker ++ before ++ '\x7b' :: inside ++ ['\x7d']) ++ rest := by
    rw [text]
    simp
  have code := IsCode.block whole listed (endsWord_iff.mp word) clear balanced
  simpa [one, Nat.add_assoc] using code

/-- The regions of a marker are exactly its balanced blocks. They ascend, do not meet and lie between
characters; each is a block at an occurrence of the marker; an occurrence as a word outside of all of them
opens no block that closes; and the content of the first marker, if there is one, is that of the first
region. -/
theorem withMarker_exact (marker t : Text) (given : marker ≠ []) :
    ∃ found, Leftmost marker 0 t found ∧
      ((withMarker marker t).Pairwise fun a b => a.span.stop ≤ b.span.start) ∧
      (∀ r ∈ withMarker marker t, r.span.On t ∧ IsCode marker t found r) ∧
      (∀ m ∈ found, WordEnd m.2 →
        (∀ r ∈ withMarker marker t, m.1 < r.span.start ∨ r.span.stop ≤ m.1) → Unclosed m.2) ∧
      ∀ content, firstContent? marker t = some content →
        (withMarker marker t).head?.map (·.content) = some content := by
  have leftmost : Leftmost marker 0 t (occurrences marker t) := occurrencesFrom_leftmost given 0 t
  refine ⟨occurrences marker t, leftmost, (ofMarkers_apart 0).2, ?_, ?_, ?_⟩
  · intro r member
    obtain ⟨m, listed, region⟩ := ofMarkers_sound member
    obtain ⟨found, word⟩ := List.mem_filter.mp listed
    have code := isCode_of_ofMarker? leftmost found word region
    exact ⟨isCode_on code, code⟩
  · intro m listed word outside
    have ascending : (markers marker t).Pairwise fun a b => a.1 ≤ b.1 :=
      ((leftmost_ascending leftmost).imp fun below => by omega).filter _
    have marked : m ∈ markers marker t := List.mem_filter.mpr ⟨listed, endsWord_iff.mpr word⟩
    exact unclosed_of_braced? (ofMarkers_complete ascending marked (Nat.zero_le _) outside)
  · intro content found
    obtain ⟨m, first, inside⟩ := Option.bind_eq_some_iff.mp found
    obtain ⟨rest, listed⟩ := List.head?_eq_some_iff.mp first
    obtain ⟨x, braced, rfl⟩ := Option.map_eq_some_iff.mp inside
    rw [withMarker, listed, ofMarkers, if_neg (Nat.not_lt_zero _), ofMarker?, braced]
    rfl

/-- Markers of which one is part of a word, one opens a block with another inside of it, and one does not
close. -/
def nestedMarkers : Text :=
  "@coder\x7b\x7d é@code \x7b a \x7b @code\x7bb\x7d \x7d \x7d @code \x7b c".toList

theorem nestedMarkers_exact :
    "@code".toList ≠ [] ∧
      withMarker "@code".toList nestedMarkers =
        [⟨.code, "a \x7b @code\x7bb\x7d \x7d".toList, ⟨11, 35⟩⟩] ∧
      firstContent? "@code".toList nestedMarkers = some "a \x7b @code\x7bb\x7d \x7d".toList ∧
      ∃ found, Leftmost "@code".toList 0 nestedMarkers found ∧
        (∀ r ∈ withMarker "@code".toList nestedMarkers,
          r.span.On nestedMarkers ∧ IsCode "@code".toList nestedMarkers found r) := by
  obtain ⟨found, leftmost, -, code, -⟩ := withMarker_exact "@code".toList nestedMarkers (by decide)
  exact ⟨by decide, by decide +kernel, by decide +kernel, found, leftmost, code⟩

end Region

end TemplateMarkup
