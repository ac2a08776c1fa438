import TemplateMarkup.Path

/-!
Paths and their pieces. A path is read piece by piece; a name put behind it adds one piece, and what is
left of it without its last name leads to the same pieces but that one.
-/
namespace TemplateMarkup

theorem Text.joinWith_cons_cons (separator s t : Text) (ts : List Text) :
    joinWith separator (s :: t :: ts) = s ++ separator ++ joinWith separator (t :: ts) := rfl

namespace Path

/-- A suffix without slashes goes to the last piece. -/
theorem pieces_append (p suffix : Text) (plain : '/' ∉ suffix) :
    ∃ before last, pieces p = before ++ [last] ∧ pieces (p ++ suffix) = before ++ [last ++ suffix] := by
  induction p with
  | nil =>
    refine ⟨[], [], rfl, ?_⟩
    induction suffix with
    | nil => rfl
    | cons c suffix ih =>
      rw [List.mem_cons, not_or] at plain
      have later := ih plain.2
      simp only [List.nil_append] at later ⊢
      rw [pieces, later]
      simp [Ne.symm plain.1]
  | cons c p ih =>
    obtain ⟨before, last, whole, longer⟩ := ih
    rw [List.cons_append, pieces, pieces, whole, longer]
    cases before with
    | nil =>
      by_cases slash : c = '/'
      · exact ⟨[[]], last, by simp [slash], by simp [slash]⟩
      · exact ⟨[], c :: last, by simp [slash], by simp [slash]⟩
    | cons first before =>
      by_cases slash : c = '/'
      · exact ⟨[] :: first :: before, last, by simp [slash], by simp [slash]⟩
      · exact ⟨(c :: first) :: before, last, by simp [slash], by simp [slash]⟩

theorem pieces_plain {p : Text} (plain : '/' ∉ p) : pieces p = [p] := by
  obtain ⟨before, last, whole, longer⟩ := pieces_append [] p plain
  obtain ⟨rfl, same⟩ := List.append_inj' (show [] ++ [[]] = before ++ [last] from whole) rfl
  rw [List.nil_append, List.nil_append, ← List.singleton_inj.mp same] at longer
  exact longer

theorem exists_pieces_cons (p : Text) : ∃ first rest, pieces p = first :: rest := by
  obtain ⟨before, last, whole, -⟩ := pieces_append p [] List.not_mem_nil
  cases before with
  | nil => exact ⟨_, _, whole⟩
  | cons first before => exact ⟨first, _, whole⟩

theorem pieces_plain_append {u t first : Text} {rest : List Text} (plain : '/' ∉ u)
    (whole : pieces t = first :: rest) : pieces (u ++ t) = (u ++ first) :: rest := by
  induction u with
  | nil => exact whole
  | cons c u ih =>
    rw [List.mem_cons, not_or] at plain
    rw [List.cons_append, pieces, ih plain.2]
    exact if_neg (Ne.symm plain.1)

theorem pieces_slash (p q : Text) : pieces (p ++ '/' :: q) = pieces p ++ pieces q := by
  induction p with
  | nil =>
    obtain ⟨first, rest, whole⟩ := exists_pieces_cons q
    simp [pieces, whole]
  | cons c p ih =>
    obtain ⟨first, rest, whole⟩ := exists_pieces_cons p
    rw [List.cons_append, pieces, ih, whole, List.cons_append, pieces, whole]
    by_cases slash : c = '/' <;> simp [slash]

theorem mem_pieces {p piece : Text} {c : Char} (member : piece ∈ pieces p) (inside : c ∈ piece) :
    c ∈ p ∧ c ≠ '/' := by
  induction p generalizing piece with
  | nil =>
    rw [List.mem_singleton.mp member] at inside
    cases inside
  | cons d p ih =>
    obtain ⟨first, rest, whole⟩ := exists_pieces_cons p
    rw [whole] at ih
    rw [pieces, whole] at member
    dsimp only at member
    have later : ∀ {piece : Text}, piece ∈ first :: rest → c ∈ piece → c ∈ d :: p ∧ c ≠ '/' :=
      fun member inside => ⟨List.mem_cons_of_mem _ (ih member inside).1, (ih member inside).2⟩
    split at member
    · rcases List.mem_cons.mp member with rfl | member
      · cases inside
      · exact later member inside
    · rename_i plain
      rcases List.mem_cons.mp member with rfl | member
      · rcases List.mem_cons.mp inside with rfl | inside
        · exact ⟨List.mem_cons_self .., plain⟩
        · exact later (List.mem_cons_self ..) inside
      · exact later (List.mem_cons_of_mem _ member) inside

theorem pieces_joinWith {texts : List Text} (given : texts ≠ []) (plain : ∀ p ∈ texts, '/' ∉ p) :
    pieces (Text.joinWith ['/'] texts) = texts := by
  induction texts with
  | nil => exact absurd rfl given
  | cons p texts ih =>
    have first := pieces_plain (plain p (List.mem_cons_self ..))
    cases texts with
    | nil => exact first
    | cons q texts =>
      rw [Text.joinWith_cons_cons, List.append_assoc, List.singleton_append, pieces_slash, first,
        ih (by simp) fun p member => plain p (List.mem_cons_of_mem _ member)]
      rfl

theorem mem_joinWith {texts : List Text} {separator : Text} {c : Char}
    (member : c ∈ Text.joinWith separator texts) : c ∈ separator ∨ ∃ t ∈ texts, c ∈ t := by
  induction texts with
  | nil => cases member
  | cons t texts ih =>
    cases texts with
    | nil => exact Or.inr ⟨t, List.mem_cons_self .., member⟩
    | cons next texts =>
      rw [Text.joinWith_cons_cons, List.append_assoc, List.mem_append, List.mem_append] at member
      rcases member with first | between | later
      · exact Or.inr ⟨t, List.mem_cons_self .., first⟩
      · exact Or.inl between
      · rcases ih later with between | ⟨u, listed, inside⟩
        · exact Or.inl between
        · exact Or.inr ⟨u, List.mem_cons_of_mem _ listed, inside⟩

theorem joinWith_pieces (p : Text) : Text.joinWith ['/'] (pieces p) = p := by
  induction p with
  | nil => rfl
  | cons c p ih =>
    obtain ⟨first, rest, whole⟩ := exists_pieces_cons p
    rw [whole] at ih
    rw [pieces, whole]
    dsimp only
    split
    · rename_i slash
      rw [Text.joinWith_cons_cons, ih, slash]
      rfl
    · cases rest with
      | nil => exact congrArg (c :: ·) ih
      | cons next rest =>
        rw [Text.joinWith_cons_cons] at ih ⊢
        exact congrArg (c :: ·) ih

def PieceStart (before : Text) : Prop := before = [] ∨ ∃ b, before = b ++ ['/']

def PieceEnd (after : Text) : Prop := after = [] ∨ ∃ a, after = '/' :: a

theorem exists_pieces_before {before : Text} (start : PieceStart before) (t : Text) :
    ∃ earlier, pieces (before ++ t) = earlier ++ pieces t := by
  rcases start with rfl | ⟨b, rfl⟩
  · exact ⟨[], rfl⟩
  · rw [List.append_assoc]
    exact ⟨pieces b, pieces_slash b t⟩

theorem mem_pieces_iff {p piece : Text} : piece ∈ pieces p ↔
    '/' ∉ piece ∧ ∃ before after, p = before ++ piece ++ after ∧ PieceStart before ∧ PieceEnd after := by
  constructor
  · intro member
    refine ⟨fun slash => (mem_pieces member slash).2 rfl, ?_⟩
    rw [← joinWith_pieces p]
    generalize pieces p = texts at member
    induction texts with
    | nil => cases member
    | cons t texts ih =>
      cases texts with
      | nil =>
        obtain rfl := List.mem_singleton.mp member
        exact ⟨[], [], by simp [Text.joinWith], Or.inl rfl, Or.inl rfl⟩
      | cons next texts =>
        rw [Text.joinWith_cons_cons]
        rcases List.mem_cons.mp member with rfl | later
        · exact ⟨[], '/' :: Text.joinWith ['/'] (next :: texts), by simp, Or.inl rfl, Or.inr ⟨_, rfl⟩⟩
        · obtain ⟨before, after, whole, start, stop⟩ := ih later
          refine ⟨t ++ '/' :: before, after, by simp [whole], Or.inr ?_, stop⟩
          rcases start with rfl | ⟨b, rfl⟩
          · exact ⟨t, rfl⟩
          · exact ⟨t ++ '/' :: b, by simp⟩
  · rintro ⟨plain, before, after, rfl, start, stop⟩
    obtain ⟨earlier, split⟩ := exists_pieces_before start (piece ++ after)
    rw [List.append_assoc, split]
    refine List.mem_append.mpr (Or.inr ?_)
    rcases stop with rfl | ⟨a, rfl⟩
    · rw [List.append_nil, pieces_plain plain]
      exact List.mem_singleton_self _
    · rw [pieces_slash, pieces_plain plain]
      exact List.mem_cons_self ..

/-- The part before all pieces: a root, or a dot at the start. -/
def lead (p : Text) : List Part :=
  if isAbsolute p then [.root] else if (pieces p).head? = some ['.'] then [.current] else []

theorem parts_eq (p : Text) : parts p = lead p ++ (pieces p).filterMap partOf? := rfl

theorem name_not_in_lead {p n : Text} : Part.name n ∉ lead p := by
  unfold lead
  split
  · simp
  · split <;> simp

structure IsName (n : Text) : Prop where
  given : n ≠ []
  dot : n ≠ ['.']
  dots : n ≠ ['.', '.']
  plain : '/' ∉ n

instance (n : Text) : Decidable (IsName n) :=
  decidable_of_iff (n ≠ [] ∧ n ≠ ['.'] ∧ n ≠ ['.', '.'] ∧ '/' ∉ n)
    ⟨fun h => ⟨h.1, h.2.1, h.2.2.1, h.2.2.2⟩, fun h => ⟨h.given, h.dot, h.dots, h.plain⟩⟩

theorem IsName.part {n : Text} (name : IsName n) : partOf? n = some (.name n) := by
  simp [partOf?, name.given, name.dot, name.dots]

theorem partOf?_eq_none_iff {piece : Text} : partOf? piece = none ↔ piece = [] ∨ piece = ['.'] := by
  unfold partOf?
  split
  · rename_i idle
    exact iff_of_true rfl idle
  · rename_i solid
    split <;> exact iff_of_false (by simp) solid

theorem text_of_part {piece : Text} {part : Part} (counts : partOf? piece = some part) :
    part ≠ .root ∧ part.text = piece := by
  unfold partOf? at counts
  split at counts
  · cases counts
  · split at counts
    · rename_i dots
      obtain rfl := Option.some.inj counts
      exact ⟨by simp, dots.symm⟩
    · obtain rfl := Option.some.inj counts
      exact ⟨by simp, rfl⟩

theorem isName_of_part {p piece n : Text} (member : piece ∈ pieces p)
    (part : partOf? piece = some (.name n)) : piece = n ∧ IsName n := by
  unfold partOf? at part
  split at part
  · cases part
  · rename_i solid
    rw [not_or] at solid
    split at part
    · cases part
    · rename_i dots
      obtain rfl := Part.name.inj (Option.some.inj part)
      exact ⟨rfl, solid.1, solid.2, dots, fun slash => (mem_pieces member slash).2 rfl⟩

theorem fileName?_eq_some_iff {p n : Text} :
    fileName? p = some n ↔ ((pieces p).filterMap partOf?).getLast? = some (.name n) := by
  unfold fileName?
  rw [parts_eq, List.getLast?_append]
  cases last : ((pieces p).filterMap partOf?).getLast? with
  | some part => cases part <;> simp
  | none =>
    -- a root or a dot is no name
    rw [Option.none_or]
    cases start : (lead p).getLast? with
    | none => simp
    | some part =>
      cases part with
      | name m => exact absurd (List.mem_of_getLast? start) name_not_in_lead
      | root => simp
      | current => simp
      | parent => simp

theorem isName_of_fileName? {p n : Text} (file : fileName? p = some n) : IsName n := by
  have last := List.mem_of_getLast? (fileName?_eq_some_iff.mp file)
  obtain ⟨piece, member, part⟩ := List.mem_filterMap.mp last
  exact (isName_of_part member part).2

theorem fileName?_of_pieces {p last : Text} {before : List Text} (whole : pieces p = before ++ [last])
    (name : partOf? last = some (.name last)) : fileName? p = some last := by
  rw [fileName?_eq_some_iff, whole]
  simp [name]

theorem exists_fileName?_append (p suffix : Text) (plain : '/' ∉ suffix)
    (long : 2 < suffix.length) : ∃ last, fileName? (p ++ suffix) = some (last ++ suffix) := by
  obtain ⟨before, last, -, whole⟩ := pieces_append p suffix plain
  have short : ∀ t : Text, t.length ≤ 2 → last ++ suffix ≠ t := by
    rintro t bound rfl
    rw [List.length_append] at bound
    omega
  refine ⟨last, fileName?_of_pieces whole ?_⟩
  simp [partOf?, short [] (by decide), short ['.'] (by decide), short ['.', '.'] (by decide)]

theorem IsName.fileName? {n : Text} (name : IsName n) : fileName? n = some n :=
  fileName?_of_pieces (show pieces n = [] ++ [n] from pieces_plain name.plain) name.part

theorem fileName?_slash {p q name : Text} (file : fileName? q = some name) :
    fileName? (p ++ '/' :: q) = some name := by
  rw [fileName?_eq_some_iff] at file ⊢
  rw [pieces_slash, List.filterMap_append, List.getLast?_append, file]
  rfl

theorem lead_slash (p q : Text) : lead (p ++ '/' :: q) = lead (p ++ ['/']) := by
  have start : isAbsolute (p ++ '/' :: q) = isAbsolute (p ++ ['/']) := by cases p <;> rfl
  obtain ⟨first, rest, whole⟩ := exists_pieces_cons p
  rw [lead, lead, start, pieces_slash, pieces_slash, whole]
  rfl

theorem parts_slash (p : Text) {n : Text} (name : IsName n) :
    parts (p ++ '/' :: n) = parts (p ++ ['/']) ++ [.name n] := by
  have last : [n].filterMap partOf? = [.name n] := by simp [name.part]
  rw [parts_eq, parts_eq, lead_slash, pieces_slash, pieces_slash, pieces_plain name.plain,
    List.filterMap_append, List.filterMap_append, last]
  simp [pieces, partOf?]

theorem parts_trailing {p : Text} (given : p ≠ []) : parts (p ++ ['/']) = parts p := by
  have start : isAbsolute (p ++ ['/']) = isAbsolute p := by
    obtain ⟨c, rest, rfl⟩ := List.exists_cons_of_ne_nil given
    rfl
  have same : lead (p ++ ['/']) = lead p := by
    obtain ⟨first, rest, whole⟩ := exists_pieces_cons p
    rw [lead, lead, start, pieces_slash, whole]
    rfl
  rw [parts_eq, parts_eq, same, pieces_slash, List.filterMap_append]
  simp [pieces, partOf?]

theorem IsName.relative {n : Text} (name : IsName n) : isAbsolute n = false := by
  obtain ⟨c, rest, rfl⟩ := List.exists_cons_of_ne_nil name.given
  have other : c ≠ '/' := fun slash => name.plain (slash ▸ List.mem_cons_self ..)
  simpa [isAbsolute] using other

theorem parts_join {dir n : Text} (given : dir ≠ []) (name : IsName n) :
    parts (join dir n) = parts dir ++ [.name n] := by
  have filled : dir.isEmpty = false := by simpa using given
  rw [join, name.relative, filled]
  simp only [Bool.or_self, Bool.false_eq_true, if_false]
  split
  · rename_i slash
    obtain ⟨start, rfl⟩ := List.getLast?_eq_some_iff.mp slash
    rw [List.append_assoc]
    exact parts_slash start name
  · rw [parts_slash dir name, parts_trailing given]

theorem ofParts_eq {ps : List Part} (inner : ∀ p ∈ ps, p ≠ .root) :
    ofParts ps = Text.joinWith ['/'] (ps.map Part.text) := by
  unfold ofParts
  split
  · exact absurd rfl (inner _ (List.mem_cons_self ..))
  · rfl

def partsBefore (p : Text) (before : List Text) : List Part := lead p ++ before.filterMap partOf?

theorem parent?_eq {p name : Text} {before : List Text} (whole : pieces p = before ++ [name])
    (part : partOf? name = some (.name name)) : parent? p = some (ofParts (partsBefore p before)) := by
  have parts : parts p = partsBefore p before ++ [.name name] := by
    rw [parts_eq, whole, List.filterMap_append, partsBefore, List.append_assoc]
    simp [part]
  rw [parent?, parts, List.reverse_append, List.reverse_singleton, List.singleton_append]
  simp

end Path

end TemplateMarkup
