import TemplateMarkup.Proofs.Edit.Splices
import TemplateMarkup.Proofs.Region.Cuts

/-!
Code and styles as cuts of a text, and when there are none. Text after a region that closes does not
change it, so what stands in a part of a text stands in the whole text as well.
-/
namespace TemplateMarkup.Region

open Text

variable {t : Text}

/-- A character ends what the braces enclose, or it is in it and the search goes on. -/
theorem closeBrace_cons (depth : Nat) (c : Char) :
    (c = '\x7d' ∧ ∀ t, closeBrace depth (c :: t) = some ([], t)) ∨
      ∃ d, ∀ t, closeBrace depth (c :: t) = (closeBrace d t).map fun x => (c :: x.1, x.2) := by
  by_cases opening : c = '\x7b'
  · exact Or.inr ⟨depth + 1, fun t => by rw [closeBrace, if_pos opening]⟩
  · by_cases closing : c = '\x7d'
    · by_cases outermost : depth = 0
      · left
        exact ⟨closing, fun t => by rw [closeBrace, if_neg opening, if_pos closing, if_pos outermost]⟩
      · right
        exact ⟨depth - 1, fun t => by
          rw [closeBrace, if_neg opening, if_pos closing, if_neg outermost]⟩
    · exact Or.inr ⟨depth, fun t => by rw [closeBrace, if_neg opening, if_neg closing]⟩

theorem closeBrace_eq {depth : Nat} {inside after : Text}
    (closed : closeBrace depth t = some (inside, after)) : t = inside ++ '\x7d' :: after := by
  induction t generalizing depth inside with
  | nil => cases closed
  | cons c t ih =>
    rcases closeBrace_cons depth c with ⟨brace, here⟩ | ⟨d, further⟩
    · rw [here] at closed
      obtain ⟨rfl, rfl⟩ := Prod.mk.inj (Option.some.inj closed)
      rw [brace, List.nil_append]
    · rw [further] at closed
      obtain ⟨found, inner, same⟩ := Option.map_eq_some_iff.mp closed
      obtain ⟨rfl, rfl⟩ := Prod.mk.inj same
      rw [ih inner, List.cons_append]

theorem closeBrace_append {depth : Nat} {inside after : Text} (more : Text)
    (closed : closeBrace depth t = some (inside, after)) :
    closeBrace depth (t ++ more) = some (inside, after ++ more) := by
  induction t generalizing depth inside with
  | nil => cases closed
  | cons c t ih =>
    rcases closeBrace_cons depth c with ⟨-, here⟩ | ⟨d, further⟩
    · rw [here] at closed
      obtain ⟨rfl, rfl⟩ := Prod.mk.inj (Option.some.inj closed)
      exact here _
    · rw [further] at closed
      obtain ⟨found, inner, same⟩ := Option.map_eq_some_iff.mp closed
      obtain ⟨rfl, rfl⟩ := Prod.mk.inj same
      rw [List.cons_append, further, ih inner, Option.map_some]

/-- What `braced?` finds: the first opening brace, and the text up to the brace that closes it. -/
theorem braced?_eq_some_iff {before inside : Text} :
    braced? t = some (before, inside) ↔ ∃ rest after, t = before ++ '\x7b' :: rest ∧
      '\x7b' ∉ before ∧ closeBrace 0 rest = some (inside, after) := by
  have parts := List.takeWhile_append_dropWhile (p := (· != '\x7b')) (l := t)
  constructor
  · intro found
    unfold braced? at found
    split at found
    · cases found
    · rename_i c rest dropped
      obtain ⟨⟨inner, after⟩, closed, same⟩ := Option.map_eq_some_iff.mp found
      obtain ⟨rfl, rfl⟩ := Prod.mk.inj same
      have brace : c = '\x7b' := by
        have head := List.head?_dropWhile_not (· != '\x7b') t
        rw [dropped] at head
        simpa using head
      subst brace
      refine ⟨rest, after, ?_, ?_, closed⟩
      · rw [← dropped, parts]
      · intro member
        have all := List.all_takeWhile (p := (· != '\x7b')) (l := t)
        simpa using List.all_eq_true.mp all _ member
  · rintro ⟨rest, after, rfl, clear, closed⟩
    have stops : ∀ c ∈ before, (c != '\x7b') = true := by
      intro c member
      simp only [bne_iff_ne]
      rintro rfl
      exact clear member
    rw [braced?, List.dropWhile_append_of_pos stops, List.takeWhile_append_of_pos stops]
    simp [closed]

theorem braced?_append {found : Text × Text} (more : Text) (here : braced? t = some found) :
    braced? (t ++ more) = some found := by
  obtain ⟨rest, after, rfl, clear, closed⟩ := braced?_eq_some_iff.mp here
  refine braced?_eq_some_iff.mpr ⟨rest ++ more, after ++ more, by simp, clear, ?_⟩
  exact closeBrace_append more closed

/-- The piece goes from a marker through the brace that closes its code. -/
def IsBlock (marker : Text) (r : Region) (n : Nat) (piece : Text) : Prop :=
  ∃ before inside, piece = marker ++ (before ++ '\x7b' :: (inside ++ ['\x7d'])) ∧
    r = ⟨.code, trim inside, ⟨n, n + bytes piece⟩⟩

theorem IsBlock.span {marker piece : Text} {r : Region} {n : Nat} (block : IsBlock marker r n piece) :
    r.span = ⟨n, n + bytes piece⟩ := by
  obtain ⟨before, inside, -, rfl⟩ := block
  rfl

theorem ofMarker?_block {marker after : Text} {start : Nat} {r : Region}
    (found : ofMarker? marker start after = some r) :
    ∃ piece rest, marker ++ after = piece ++ rest ∧ IsBlock marker r start piece := by
  obtain ⟨⟨before, inside⟩, braced, rfl⟩ := Option.map_eq_some_iff.mp found
  obtain ⟨tail, rest, rfl, -, closed⟩ := braced?_eq_some_iff.mp braced
  refine ⟨marker ++ (before ++ '\x7b' :: (inside ++ ['\x7d'])), rest, ?_, before, inside, rfl, ?_⟩
  · rw [closeBrace_eq closed]
    simp
  · have one : ('\x7b' : Char).utf8Size = 1 ∧ ('\x7d' : Char).utf8Size = 1 := by decide
    simp [one, Nat.add_assoc]

theorem ofMarkers_cut {marker : Text} (given : marker ≠ []) (lead tail : Text)
    (found : List (Nat × Text))
    (sound : ∀ m ∈ found, ∃ before, lead ++ tail = before ++ marker ++ m.2 ∧ m.1 = bytes before) :
    ∃ rest, Cut (IsBlock marker) (bytes lead) tail (ofMarkers marker (bytes lead) found) rest := by
  induction found generalizing lead tail with
  | nil => exact ⟨tail, cut_nothing _ _⟩
  | cons m found ih =>
    obtain ⟨start, after⟩ := m
    have later := fun m member => sound m (List.mem_cons_of_mem _ member)
    rw [ofMarkers]
    split
    · exact ih lead tail later
    · rename_i reached
      split
      · rename_i r region
        obtain ⟨before, split, rfl⟩ := sound _ (List.mem_cons_self ..)
        obtain ⟨piece, rest, text, block⟩ := ofMarker?_block region
        rw [List.append_assoc, text] at split
        -- the occurrence starts at `resume` or after it
        obtain ⟨gap, rfl, rfl⟩ := append_inj_of_bytes split (by omega)
        have stop : r.span.stop = bytes (lead ++ gap ++ piece) := by
          rw [block.span, bytes_append _ piece]
        obtain ⟨kept, cut⟩ := ih (lead ++ gap ++ piece) rest (by
          intro m member
          obtain ⟨before, same, start⟩ := later m member
          exact ⟨before, by rw [← same]; simp, start⟩)
        refine ⟨gap ++ kept, cut_after gap (Cut.take ?_ ?_ ?_)⟩
        · obtain ⟨_, _, rfl, -⟩ := block
          simp [given]
        · rw [← bytes_append]
          exact block
        · rw [stop, ← bytes_append, ← bytes_append]
          exact cut
      · exact ih lead tail later

theorem directive_once {d : Text} (member : d ∈ directives) :
    ∃ part, d = '@' :: part ∧ '@' ∉ part := by
  rcases List.mem_cons.mp member with rfl | later
  · exact ⟨"code".toList, by decide, by decide⟩
  · obtain rfl := List.mem_singleton.mp later
    exact ⟨"functions".toList, by decide, by decide⟩

theorem withMarker_cut {marker : Text} (given : marker ≠ []) (t : Text) :
    Cut (IsBlock marker) 0 t (withMarker marker t)
      (outside t ((withMarker marker t).map (·.span))) := by
  have sound : ∀ m ∈ markers marker t, ∃ before, t = before ++ marker ++ m.2 ∧
      m.1 = bytes before := by
    intro m member
    obtain ⟨lead, split, start⟩ := occurrencesFrom_sound given (List.mem_filter.mp member).1
    exact ⟨lead, split, by simpa using start⟩
  obtain ⟨rest, cut⟩ := ofMarkers_cut given [] t (markers marker t) sound
  have left : outside t ((withMarker marker t).map (·.span)) = rest :=
    outside_cut cut fun _ _ _ block => block.span
  rw [left]
  exact cut

theorem ofMarkers_eq_nil {marker : Text} {found : List (Nat × Text)} :
    ofMarkers marker 0 found = [] ↔ ∀ m ∈ found, braced? m.2 = none := by
  induction found with
  | nil => simp [ofMarkers]
  | cons m found ih =>
    obtain ⟨start, after⟩ := m
    rw [ofMarkers, if_neg (Nat.not_lt_zero start), List.forall_mem_cons, ofMarker?]
    cases braced? after with
    | none => simp [ih]
    | some x => simp

/-- A directive opens no code exactly if none of its occurrences as a word has braces after it. -/
theorem withMarker_eq_nil_iff {d : Text} (member : d ∈ directives) (t : Text) :
    withMarker d t = [] ↔
      ∀ lead after, t = lead ++ d ++ after → endsWord after → braced? after = none := by
  obtain ⟨part, rfl, once⟩ := directive_once member
  have every : occurrences ('@' :: part) t = everyOccurrence ('@' :: part) 0 t :=
    occurrencesFrom_eq_every once 0 0 t (by simp)
  rw [withMarker, ofMarkers_eq_nil, markers]
  constructor
  · intro clear lead after split word
    refine clear (0 + bytes lead, after) (List.mem_filter.mpr ⟨?_, word⟩)
    rw [every]
    exact mem_everyOccurrence (by simp) lead split
  · rintro clear ⟨start, after⟩ found
    obtain ⟨here, word⟩ := List.mem_filter.mp found
    obtain ⟨lead, split, -⟩ := occurrencesFrom_sound (by simp) here
    exact clear lead after split word

theorem toLower_bracket {c : Char} (lowers : c.toLower = '<') : c = '<' := by
  delta Char.toLower at lowers
  split at lowers
  · rename_i capital
    have number := congrArg (fun d : Char => d.val.toNat) lowers
    have bounds := capital
    simp only [ge_iff_le, UInt32.le_iff_toNat_le] at bounds
    simp at number bounds
    omega
  · exact lowers

theorem stripFold?_eq {word rest : Text} (strip : stripFold? word t = some rest) :
    (∃ lead, t = lead ++ rest) ∧ ∀ more, stripFold? word (t ++ more) = some (rest ++ more) := by
  induction word generalizing t with
  | nil =>
    rw [stripFold?] at strip
    obtain rfl := Option.some.inj strip
    exact ⟨⟨[], rfl⟩, fun more => by rw [stripFold?]⟩
  | cons l word ih =>
    cases t with
    | nil => cases strip
    | cons c t =>
      rw [stripFold?] at strip
      split at strip
      · rename_i folds
        obtain ⟨⟨lead, rfl⟩, longer⟩ := ih strip
        refine ⟨⟨c :: lead, rfl⟩, fun more => ?_⟩
        rw [List.cons_append, stripFold?, if_pos folds, longer]
      · cases strip

theorem stripFold?_bracket {word rest : Text} (strip : stripFold? ('<' :: word) t = some rest) :
    ∃ tail, t = '<' :: tail ∧ stripFold? word tail = some rest := by
  cases t with
  | nil => cases strip
  | cons c t =>
    rw [stripFold?] at strip
    split at strip
    · rename_i folds
      have lowers : c.toLower = '<' := by simpa [foldsTo] using folds
      exact ⟨t, by rw [toLower_bracket lowers], strip⟩
    · cases strip

theorem tail?_dropWhile_append {p : Char → Bool} {after : Text}
    (found : (t.dropWhile p).tail? = some after) :
    (∃ lead, t = lead ++ after) ∧ ∀ more, ((t ++ more).dropWhile p).tail? = some (after ++ more) := by
  obtain ⟨c, dropped⟩ : ∃ c, t.dropWhile p = c :: after := by
    cases whole : t.dropWhile p with
    | nil => simp [whole] at found
    | cons c rest =>
      rw [whole] at found
      exact ⟨c, by rw [← Option.some.inj found]⟩
  refine ⟨⟨t.takeWhile p ++ [c], ?_⟩, fun more => ?_⟩
  · have parts := List.takeWhile_append_dropWhile (p := p) (l := t)
    rw [dropped] at parts
    simpa using parts.symm
  · rw [List.dropWhile_append, dropped]
    simp

/-- An opening style tag begins with a bracket, and more text after it does not change it. -/
theorem styleOpen?_eq {after : Text} (opened : styleOpen? t = some after) :
    (∃ tag, t = '<' :: tag ++ after) ∧ ∀ more, styleOpen? (t ++ more) = some (after ++ more) := by
  obtain ⟨rest, strip, closed⟩ := Option.bind_eq_some_iff.mp opened
  cases rest with
  | nil => cases closed
  | cons c rest =>
    dsimp only at closed
    split at closed
    · cases closed
    · rename_i boundary
      obtain ⟨⟨more, split⟩, longer⟩ := tail?_dropWhile_append closed
      obtain ⟨tail, rfl, inner⟩ := stripFold?_bracket strip
      obtain ⟨⟨lead, rfl⟩, _⟩ := stripFold?_eq inner
      refine ⟨⟨lead ++ more, by rw [split]; simp⟩, fun extra => ?_⟩
      rw [styleOpen?, (stripFold?_eq strip).2 extra]
      have further := longer extra
      rw [List.cons_append] at further
      simpa [boundary] using further

theorem styleClose?_eq {after : Text} (closed : styleClose? t = some after) :
    (∃ tag, t = '<' :: tag ++ after) ∧ ∀ more, styleClose? (t ++ more) = some (after ++ more) := by
  obtain ⟨rest, strip, ended⟩ := Option.bind_eq_some_iff.mp closed
  have dropped : rest.dropWhile isBlank = '>' :: after := by
    split at ended
    · rename_i found
      rw [← Option.some.inj ended, found]
    · cases ended
  obtain ⟨⟨more, split⟩, -⟩ := tail?_dropWhile_append (t := rest) (p := isBlank) (by rw [dropped]; rfl)
  obtain ⟨tail, rfl, inner⟩ := stripFold?_bracket strip
  obtain ⟨⟨lead, rfl⟩, _⟩ := stripFold?_eq inner
  refine ⟨⟨lead ++ more, by rw [split]; simp⟩, fun extra => ?_⟩
  rw [styleClose?, (stripFold?_eq strip).2 extra, Option.bind_some, List.dropWhile_append, dropped]
  simp

theorem untilStyleClose?_eq {inside after : Text}
    (found : untilStyleClose? t = some (inside, after)) : ∃ tag, t = inside ++ tag ++ after := by
  induction t generalizing inside with
  | nil => cases found
  | cons c t ih =>
    rw [untilStyleClose?.eq_def] at found
    split at found
    · rename_i rest closed
      obtain ⟨rfl, rfl⟩ := Prod.mk.inj (Option.some.inj found)
      obtain ⟨⟨tag, split⟩, -⟩ := styleClose?_eq closed
      exact ⟨'<' :: tag, split⟩
    · obtain ⟨⟨inner, rest⟩, later, same⟩ := Option.map_eq_some_iff.mp found
      obtain ⟨rfl, rfl⟩ := Prod.mk.inj same
      obtain ⟨tag, rfl⟩ := ih later
      exact ⟨tag, rfl⟩

theorem untilStyleClose?_append (more : Text) (found : (untilStyleClose? t).isSome) :
    (untilStyleClose? (t ++ more)).isSome := by
  induction t with
  | nil => cases found
  | cons c t ih =>
    rw [untilStyleClose?.eq_def] at found ⊢
    cases closed : styleClose? (c :: t) with
    | some after =>
      rw [(styleClose?_eq closed).2 more]
      rfl
    | none =>
      rw [closed] at found
      cases styleClose? (c :: t ++ more) with
      | some after => rfl
      | none => simpa using ih (by simpa using found)

/-- The style that stands here: its content and what follows it. -/
def styleAt? (t : Text) : Option (Text × Text) := (styleOpen? t).bind untilStyleClose?

theorem styleAt?_eq {inside after : Text} (found : styleAt? t = some (inside, after)) :
    ∃ tag close, t = '<' :: tag ++ inside ++ close ++ after := by
  obtain ⟨rest, opened, closed⟩ := Option.bind_eq_some_iff.mp found
  obtain ⟨⟨tag, rfl⟩, -⟩ := styleOpen?_eq opened
  obtain ⟨close, rfl⟩ := untilStyleClose?_eq closed
  exact ⟨tag, close, by simp⟩

theorem styleAt?_append (more : Text) (found : (styleAt? t).isSome) :
    (styleAt? (t ++ more)).isSome := by
  obtain ⟨x, here⟩ := Option.isSome_iff_exists.mp found
  obtain ⟨rest, opened, closed⟩ := Option.bind_eq_some_iff.mp here
  rw [styleAt?, (styleOpen?_eq opened).2 more, Option.bind_some]
  exact untilStyleClose?_append more (by rw [closed]; rfl)

/-- The piece goes from the bracket of an opening style tag through the closing tag. -/
def IsStyle (r : Region) (n : Nat) (piece : Text) : Prop :=
  ∃ tag inside close, piece = '<' :: tag ++ inside ++ close ∧
    r = ⟨.style, trim inside, ⟨n, n + bytes piece⟩⟩

theorem IsStyle.span {r : Region} {n : Nat} {piece : Text} (style : IsStyle r n piece) :
    r.span = ⟨n, n + bytes piece⟩ := by
  obtain ⟨tag, inside, close, -, rfl⟩ := style
  rfl

theorem stylesFrom_some (size fuel : Nat) {c : Char} {inside after : Text}
    (here : styleAt? (c :: t) = some (inside, after)) :
    stylesFrom size (fuel + 1) (c :: t) =
      ⟨.style, trim inside, ⟨size - bytes (c :: t), size - bytes after⟩⟩ ::
        stylesFrom size fuel after := by
  unfold styleAt? at here
  rw [stylesFrom, here]

theorem stylesFrom_none (size fuel : Nat) {c : Char} (here : styleAt? (c :: t) = none) :
    stylesFrom size (fuel + 1) (c :: t) = stylesFrom size fuel t := by
  unfold styleAt? at here
  rw [stylesFrom, here]

/-- Styles are cut out; there is none exactly if no style stands anywhere. -/
theorem stylesFrom_cut (size fuel : Nat) (t : Text) (enough : t.length < fuel)
    (bound : bytes t ≤ size) :
    (∃ rest, Cut IsStyle (size - bytes t) t (stylesFrom size fuel t) rest) ∧
      (stylesFrom size fuel t = [] ↔ ∀ lead s, t = lead ++ s → styleAt? s = none) := by
  induction fuel generalizing t with
  | zero => omega
  | succ fuel ih =>
    cases t with
    | nil =>
      rw [stylesFrom.eq_def]
      refine ⟨⟨[], Cut.nil⟩, iff_of_true rfl ?_⟩
      intro lead s split
      rw [(List.append_eq_nil_iff.mp split.symm).2]
      rfl
    | cons c t =>
      rw [List.length_cons] at enough
      rw [bytes_cons] at bound
      cases here : styleAt? (c :: t) with
      | none =>
        rw [stylesFrom_none size fuel here]
        obtain ⟨⟨rest, cut⟩, nothing⟩ := ih t (by omega) (by omega)
        refine ⟨⟨c :: rest, Cut.keep ?_⟩, nothing.trans ⟨?_, ?_⟩⟩
        · rw [bytes_cons, show size - (c.utf8Size + bytes t) + c.utf8Size = size - bytes t by omega]
          exact cut
        · intro clear lead s split
          cases lead with
          | nil =>
            rw [← List.nil_append s, ← split]
            exact here
          | cons d lead =>
            obtain ⟨-, rfl⟩ := List.cons.inj split
            exact clear lead s rfl
        · intro clear lead s split
          exact clear (c :: lead) s (by rw [split]; rfl)
      | some found =>
        obtain ⟨inside, after⟩ := found
        rw [stylesFrom_some size fuel here]
        obtain ⟨tag, close, text⟩ := styleAt?_eq here
        have sizes := congrArg bytes text
        have lengths := congrArg List.length text
        rw [bytes_append _ after, bytes_cons] at sizes
        simp only [List.length_append, List.length_cons] at lengths
        obtain ⟨⟨rest, cut⟩, -⟩ := ih after (by omega) (by omega)
        refine ⟨⟨rest, ?_⟩, ?_⟩
        · have stop : size - bytes after =
              size - bytes (c :: t) + bytes ('<' :: tag ++ inside ++ close) := by
            rw [bytes_cons]
            omega
          generalize size - bytes (c :: t) = n at stop
          rw [stop] at cut ⊢
          have whole := Cut.take (by simp) ⟨tag, inside, close, rfl, rfl⟩ cut
          rwa [← text] at whole
        · refine iff_of_false (by simp) fun clear => ?_
          have refused := clear [] (c :: t) rfl
          rw [here] at refused
          cases refused

theorem stylesIn_cut (t : Text) :
    Cut IsStyle 0 t (stylesIn t) (outside t ((stylesIn t).map (·.span))) := by
  obtain ⟨⟨rest, cut⟩, -⟩ := stylesFrom_cut (bytes t) (t.length + 1) t (by omega) (by omega)
  rw [Nat.sub_self] at cut
  have left : outside t ((stylesIn t).map (·.span)) = rest :=
    outside_cut cut fun _ _ _ style => style.span
  rw [left]
  exact cut

end TemplateMarkup.Region
