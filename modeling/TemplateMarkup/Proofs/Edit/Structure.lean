import TemplateMarkup.Proofs.Edit.Renames
import TemplateMarkup.Proofs.Edit.Weave
import TemplateMarkup.Proofs.Lists
import TemplateMarkup.Proofs.Markup.Retelling
import TemplateMarkup.Proofs.Resemblance

/-!
A renaming keeps the structure of a text. The class values that use a name are tokens of the text, so the
renamed text is the text told again with other values in their places. A new name without blanks and
quotation marks fills these places, unless it begins a comment, cannot be read, or has to stand without
quotation marks and holds a character that ends such a value. Then both texts are read alike.
-/
namespace TemplateMarkup

open Text

/-- Where no two of a list share bytes, bytes tell whose they are. -/
theorem Span.eq_of_apart {α : Type} {xs : List α} {f : α → Option Span} {x y : α} {s : Span}
    (apart : xs.Pairwise fun x y => ∀ s ∈ f x, ∀ u ∈ f y, s.Apart u) (first : x ∈ xs) (second : y ∈ xs)
    (here : s ∈ f x) (there : s ∈ f y) (filled : s.start < s.stop) : x = y := by
  have symm : Std.Symm fun x y => ∀ s ∈ f x, ∀ u ∈ f y, s.Apart u :=
    ⟨fun _ _ apart s here u there => apart_symm (apart u there s here)⟩
  by_contra differ
  have away := apart.forall first second differ s here s there
  unfold Apart at away
  omega

namespace Markup

open Cursor

namespace Tree

def isValue (x : Tree) : Bool := x.label.terminal?.any Terminal.isValue

variable (t : Text) (spans : List Span) (f : Text → Text)

/-- The values with the given bytes are told as the function has them, all else as it stands. -/
def rewriting : Tale := fun a s => if a.isValue && spans.contains s then f (s.slice t) else s.slice t

def isAmong (x : Tree) : Bool := x.isValue && spans.contains x.span

def rewrites (xs : List Tree) : List Splice :=
  (xs.filter (isAmong spans)).map fun x => ⟨x.span, f (x.span.slice t)⟩

variable {t spans f} {c : Cursor} {xs : List Tree}

theorem rewriting_keeps : (rewriting t spans f).Keeps t := by
  intro a s other
  rw [rewriting, other]
  rfl

theorem tiles_on (tiles : Tiles c xs) (inside : c.In t) :
    ∀ x ∈ xs, x.span.On t ∧ c.offset ≤ x.span.start := by
  induction xs generalizing c with
  | nil => nofun
  | cons x xs ih =>
    obtain ⟨-, lead, body, -, rest⟩ := tiles
    have start := in_reaches inside lead
    have stop := in_reaches start body
    have low := reaches_offset lead
    have range := reaches_offset body
    intro y member
    rcases List.mem_cons.mp member with rfl | later
    · exact ⟨⟨range, in_boundary start, in_boundary stop⟩, low⟩
    · obtain ⟨on, high⟩ := ih rest stop y later
      exact ⟨on, by omega⟩

theorem tiles_ordered (tiles : Tiles c xs) (inside : c.In t) :
    xs.Pairwise fun x y => x.span.stop ≤ y.span.start := by
  induction xs generalizing c with
  | nil => exact .nil
  | cons x xs ih =>
    obtain ⟨-, lead, body, -, rest⟩ := tiles
    have stop := in_reaches (in_reaches inside lead) body
    exact .cons (fun y member => (tiles_on rest stop y member).2) (ih rest stop)

/-- The text that is told is the text with the values rewritten. -/
theorem weave_rewrites (tiles : Tiles c xs) (inside : c.In t) :
    Splice.weave t c.offset (rewrites t spans f xs) = retell t (rewriting t spans f) xs := by
  induction xs generalizing c with
  | nil =>
    obtain ⟨lead, split, offset⟩ := in_split inside
    have last : lead = t := by rw [split, show c.rest = [] from tiles, List.append_nil]
    rw [rewrites, retell, List.filter_nil, List.map_nil, List.flatMap_nil, Splice.weave, offset, last]
    exact slice_self (boundary_end t)
  | cons x xs ih =>
    have on := tiles_on tiles inside
    obtain ⟨origin, lead, body, ⟨a, label⟩, rest⟩ := tiles
    have start := in_reaches inside lead
    have stop := in_reaches start body
    have gap : x.gap t = slice t c.offset x.span.start := by rw [Tree.gap, origin]; rfl
    have value : x.isValue = a.isValue := by rw [isValue, label]; rfl
    have later : ∀ s ∈ rewrites t spans f xs, s.span.On t ∧ x.info.stop.offset ≤ s.span.start := by
      intro s member
      obtain ⟨y, listed, rfl⟩ := List.mem_map.mp member
      exact tiles_on rest stop y (List.mem_filter.mp listed).1
    rw [retell_cons label, ← ih rest stop, gap, rewriting, ← value, ← isAmong]
    by_cases chosen : x.isAmong spans = true
    · rw [if_pos chosen, rewrites, List.filter_cons_of_pos chosen, List.map_cons, Splice.weave,
        List.append_assoc]
      rfl
    · have further := (on x (by simp)).2
      rw [if_neg chosen, rewrites, List.filter_cons_of_neg chosen, ← rewrites, ← List.append_assoc,
        Splice.weave_advance (in_boundary inside) (in_boundary stop)
          (Nat.le_trans further (on x (by simp)).1.range) (fun s member => (later s member).1) fun s member => (later s member).2]
      congr 1
      exact slice_split (in_boundary inside) (in_boundary start) (in_boundary stop) further
        (reaches_offset body)

theorem rewrites_on (tiles : Tiles c xs) (inside : c.In t) :
    ∀ s ∈ rewrites t spans f xs, s.span.On t := by
  intro s member
  obtain ⟨x, listed, rfl⟩ := List.mem_map.mp member
  exact (tiles_on tiles inside x (List.mem_filter.mp listed).1).1

theorem rewrites_ordered (tiles : Tiles c xs) (inside : c.In t)
    (filled : ∀ s ∈ spans, s.start < s.stop) :
    (rewrites t spans f xs).Pairwise Splice.Precedes := by
  refine List.pairwise_map.mpr (((tiles_ordered tiles inside).filter _).imp_of_mem ?_)
  intro x y memberX memberY before
  obtain ⟨-, chosen⟩ := List.mem_filter.mp memberX
  have span : x.span ∈ spans := by simpa using (Bool.and_eq_true_iff.mp chosen).2
  have range := (tiles_on tiles inside y (List.mem_filter.mp memberY).1).1.range
  exact ⟨before, Nat.lt_of_lt_of_le (filled _ span) (Nat.le_trans before range)⟩

end Tree

end Markup

namespace Edit

open Markup Tree

variable {t old new : Text}

theorem word_of_checkClassName {role name : Text} (accepted : checkClassName role name = .ok ()) :
    name ≠ [] ∧ ∀ c ∈ name, isBlank c = false ∧ c ≠ '\x22' ∧ c ≠ '\x27' := by
  unfold checkClassName at accepted
  split at accepted
  · cases accepted
  · rename_i plain
    simpa [and_assoc] using plain

theorem escapeValue_plain {value : Text} (plain : ∀ c ∈ value, c ≠ '\x22' ∧ c ≠ '\x27') (quote : Char) :
    escapeValue value quote = value := by
  have kept : ∀ (d : Char) (w : Text), (∀ c ∈ value, c ≠ d) → replaceChar d w value = value := by
    intro d w other
    unfold replaceChar
    rw [List.flatMap_congr (g := fun c => [c]) fun c member => if_neg (other c member)]
    exact List.flatMap_singleton' value
  unfold escapeValue
  split
  · exact kept _ _ fun c member => (plain c member).2
  · exact kept _ _ fun c member => (plain c member).1

section Renamed

variable {value : Text}

theorem mem_renamed {c : Char} (member : c ∈ renamed old new value) : c ∈ value ∨ c ∈ new := by
  obtain ⟨run, listed, inside⟩ := List.mem_flatMap.mp member
  unfold renameRun at inside
  split at inside
  · exact Or.inr inside
  · refine Or.inl ?_
    rw [← List.flatten_splitBy (fun c d => isBlank c == isBlank d) value]
    exact List.mem_flatten.mpr ⟨run, listed, inside⟩

theorem renamed_ne_nil (word : new ≠ []) (filled : value ≠ []) : renamed old new value ≠ [] := by
  intro none
  have empty : ∀ run ∈ runs value, renameRun old new run = [] := List.flatMap_eq_nil_iff.mp none
  have noRun : runs value = [] := List.eq_nil_iff_forall_not_mem.mpr fun run member => ?_
  · exact filled (List.splitBy_eq_nil.mp noRun)
  have nothing := empty run member
  unfold renameRun at nothing
  split at nothing
  · exact word nothing
  · exact List.ne_nil_of_mem_splitBy member nothing

theorem renamed_lead {lead rest : Text} (blank : ∀ c ∈ lead, isBlank c = true) :
    renamed old new (lead ++ rest) = lead ++ renamed old new rest := by
  induction lead with
  | nil => rfl
  | cons c lead ih =>
    obtain ⟨here, later⟩ := List.forall_mem_cons.mp blank
    rw [List.cons_append, (renamed_cons_blank old new here _).1, ih later, List.cons_append]

theorem not_comment_of_isBlank {c : Char} (blank : isBlank c = true) : c ≠ '<' ∧ c ≠ '!' ∧ c ≠ '-' := by
  refine ⟨?_, ?_, ?_⟩
  all_goals
    rintro rfl
    exact absurd blank (by decide)

theorem dropWhile_solid {w r : Text} (filled : w ≠ []) (solid : ∀ c ∈ w, isBlank c = false) :
    (w ++ r).dropWhile isMarkupBlank = w ++ r := by
  obtain ⟨c, w, rfl⟩ := List.exists_cons_of_ne_nil filled
  refine List.dropWhile_cons_of_neg fun blank => ?_
  have := isBlank_of_isMarkupBlank blank
  rw [solid c (by simp)] at this
  cases this

/-- A renamed value does not begin with a comment, if neither the value nor the new name does. -/
theorem renamed_shut (word : new ≠ []) (solid : ∀ c ∈ new, isBlank c = false)
    (plain : opensComment new = false) (shut : opensComment (value.dropWhile isMarkupBlank) = false) :
    opensComment ((renamed old new value).dropWhile isMarkupBlank) = false := by
  have lead : ∀ c ∈ value.takeWhile isMarkupBlank, isMarkupBlank c = true :=
    fun c member => List.all_eq_true.mp List.all_takeWhile c member
  rw [← List.takeWhile_append_dropWhile (p := isMarkupBlank) (l := value),
    renamed_lead fun c member => isBlank_of_isMarkupBlank (lead c member),
    List.dropWhile_append_of_pos lead]
  have starts := List.head?_dropWhile_not isMarkupBlank value
  generalize value.dropWhile isMarkupBlank = rest at shut starts
  cases rest with
  | nil => rfl
  | cons c r =>
    by_cases blank : isBlank c = true
    · rw [(renamed_cons_blank old new blank r).1, List.dropWhile_cons_of_neg (by simpa using starts)]
      simp [opensComment, List.isPrefixOf, (not_comment_of_isBlank blank).1.symm]
    · -- the value goes on with a word, which is renamed or stays
      have parts := List.takeWhile_append_dropWhile (p := fun d => !isBlank d) (l := c :: r)
      have head : (c :: r).takeWhile (fun d => !isBlank d) ≠ [] := by simp [blank]
      have chars : ∀ d ∈ (c :: r).takeWhile (fun d => !isBlank d), isBlank d = false := by
        intro d member
        simpa using List.all_eq_true.mp List.all_takeWhile d member
      have ends : ∀ d ∈ ((c :: r).dropWhile fun d => !isBlank d).head?, isBlank d = true := by
        intro d next
        have := List.head?_dropWhile_not (fun d => !isBlank d) (c :: r)
        rw [Option.mem_def.mp next] at this
        simpa using this
      generalize (c :: r).takeWhile (fun d => !isBlank d) = w at parts head chars
      generalize (c :: r).dropWhile (fun d => !isBlank d) = u at parts ends
      have next : ∀ d ∈ (renamed old new u).head?, d ≠ '<' ∧ d ≠ '!' ∧ d ≠ '-' := by
        intro d first
        cases u with
        | nil => cases first
        | cons e u =>
          rw [(renamed_cons_blank old new (ends e rfl) u).1] at first
          exact not_comment_of_isBlank (ends d first)
      rw [← parts] at shut ⊢
      rw [(renamed_word old new head (isWord_iff.mpr chars) ends).1]
      unfold renameWord
      split
      · rw [dropWhile_solid word solid]
        exact opensComment_append next plain
      · rw [dropWhile_solid head chars]
        exact opensComment_append next (opensComment_of_append shut)

theorem fills_renamed {a : Terminal} (word : new ≠ [])
    (solid : ∀ c ∈ new, isBlank c = false ∧ c ≠ '\x22' ∧ c ≠ '\x27') (readable : '\x00' ∉ new)
    (plain : opensComment new = false)
    (bare : a = .attributeValue → ∀ c ∈ new, Lexeme.isValueChar c = true) (sort : a.isValue = true)
    (fills : a.Fills value) : a.Fills (renamed old new value) := by
  have quoted : ∀ q : Quote, q.Fills value → q.Fills (renamed old new value) := by
    rintro q ⟨filled, chars, shut⟩
    refine ⟨renamed_ne_nil word filled, fun c member => ?_,
      renamed_shut word (fun c member => (solid c member).1) plain shut⟩
    rcases mem_renamed member with kept | put
    · exact chars c kept
    · obtain ⟨-, quotation, apostrophe⟩ := solid c put
      have other : c ≠ '\x00' := fun null => readable (null ▸ put)
      cases q <;> simp [Quote.allows, Quote.char, quotation, apostrophe, other]
  cases a with
  | attributeValue =>
    refine ⟨renamed_ne_nil word fills.1, fun c member => ?_⟩
    rcases mem_renamed member with kept | put
    · exact fills.2 c kept
    · exact bare rfl c put
  | apostropheText => exact quoted .single fills
  | quotationText => exact quoted .double fills
  | _ => cases sort

end Renamed

/-- The bytes of the class values with a use of the name. -/
def usedSpans (t old : Text) : List Span :=
  ((classValues t).filter fun v => uses old (v.1.slice t) != 0).map (·.1)

theorem mem_usedSpans {s : Span} : s ∈ usedSpans t old ↔
    ∃ a ∈ (Document.read t).records.flatMap (·.attributes), ClassName.isAttribute a.name = true ∧
      a.valueSpan = some s ∧ uses old (s.slice t) ≠ 0 := by
  simp only [usedSpans, classValues, List.mem_map, List.mem_filter, List.mem_filterMap, classValue?]
  constructor
  · rintro ⟨v, ⟨⟨a, member, found⟩, used⟩, rfl⟩
    split at found
    · rename_i named
      obtain ⟨s, value, rfl⟩ := Option.map_eq_some_iff.mp found
      exact ⟨a, member, named, value, by simpa using used⟩
    · cases found
  · rintro ⟨a, member, named, value, used⟩
    exact ⟨(s, a.quote.getD '\x22'), ⟨⟨a, member, by simp [named, value]⟩, by simpa using used⟩, rfl⟩

theorem usedSpans_filled : ∀ s ∈ usedSpans t old, s.start < s.stop := by
  intro s member
  obtain ⟨a, listed, -, value, used⟩ := mem_usedSpans.mp member
  exact start_lt_of_uses old ((settled_of_mem listed).value s value).1 used

theorem usedSpans_nodup : (usedSpans t old).Nodup := by
  refine List.pairwise_map.mpr (((classValues_apart t).filter _).imp_of_mem ?_)
  intro v w member _ apart same
  have filled := usedSpans_filled v.1 (List.mem_map_of_mem member)
  rw [← same] at apart
  unfold Span.Apart at apart
  omega

section Reading

variable {xs : List Tree} {x : Tree} (reads : Pile.start.Reads t xs x)

include reads

/-- The value of an attribute is a token, unless it is empty. -/
theorem value_token {a : Attribute} {s : Span}
    (member : a ∈ (Document.read t).records.flatMap (·.attributes)) (value : a.valueSpan = some s)
    (filled : s.slice t ≠ []) :
    ∃ y ∈ xs, ∃ b : Terminal, y.label = .terminal b ∧ b.isValue = true ∧ y.span = s ∧
      (b = .attributeValue → a.quote = none) := by
  have whole := Pile.read_of_reads reads
  have alike := reads.listed (fun _ member => member) Pile.alike_start
  have ruled := reads.ruled Pile.regular_start
  rw [← whole] at alike ruled
  let bond : Bond := fun a s s' => s = s' ∧ ∃ y ∈ xs, y.label = .terminal a ∧ y.span = s
  have names : Names t t bond := fun a s s' _ bound => by rw [bound.1]
  have records := (Document.alike_read (fun a s c d tied _ _ => tied) names alike ruled).2
  obtain ⟨r, memberR, memberA⟩ := List.mem_flatMap.mp member
  have here := List.forall₂_same.mp (List.forall₂_same.mp records r memberR).attributes a memberA
  have values := here.value
  rw [value] at values
  cases values with
  | some bound =>
    rcases bound with ⟨b, sort, bare, -, y, listed, label, span⟩ | ⟨none, -⟩
    · exact ⟨y, listed, b, label, by cases b <;> cases sort <;> rfl, span, bare⟩
    · rw [(settled_of_mem member).read, value] at none
      exact absurd (Option.some.inj none) filled

variable (old new)

/-- A use of the name stands in a token that is the value of a class attribute. -/
theorem used_token {s : Span} (used : s ∈ usedSpans t old) :
    ∃ a ∈ (Document.read t).records.flatMap (·.attributes), ClassName.isAttribute a.name = true ∧
      a.valueSpan = some s ∧ uses old (s.slice t) ≠ 0 ∧
      ∃ y ∈ xs, ∃ b : Terminal, y.label = .terminal b ∧ b.isValue = true ∧ y.span = s ∧
        (b = .attributeValue → a.quote = none) := by
  obtain ⟨a, listed, named, value, uses⟩ := mem_usedSpans.mp used
  have filled : s.slice t ≠ [] := by
    intro none
    rw [none] at uses
    exact uses rfl
  exact ⟨a, listed, named, value, uses, value_token reads listed value filled⟩

theorem usedSpans_tokens : ((xs.filter (isAmong (usedSpans t old))).map span).Perm (usedSpans t old) := by
  have inside := Cursor.in_start t
  have nodup : ((xs.filter (isAmong (usedSpans t old))).map span).Nodup := by
    refine List.pairwise_map.mpr (((tiles_ordered reads.tiles inside).filter _).imp_of_mem ?_)
    intro y z member _ before same
    obtain ⟨-, chosen⟩ := List.mem_filter.mp member
    have filled := usedSpans_filled y.span (by simpa using (Bool.and_eq_true_iff.mp chosen).2)
    rw [← same] at before
    omega
  refine (List.perm_ext_iff_of_nodup nodup usedSpans_nodup).mpr fun s =>
    ⟨fun member => ?_, fun member => ?_⟩
  · obtain ⟨y, listed, rfl⟩ := List.mem_map.mp member
    simpa using (Bool.and_eq_true_iff.mp (List.mem_filter.mp listed).2).2
  · obtain ⟨a, -, -, -, -, y, token, b, label, sort, rfl, -⟩ := used_token old reads member
    refine List.mem_map.mpr ⟨y, List.mem_filter.mpr ⟨token, ?_⟩, rfl⟩
    rw [isAmong, isValue, label]
    simpa [Label.terminal?, sort] using member

theorem rewrites_usedSpans : (rewrites t (usedSpans t old) (renamed old new) xs).Perm
    ((usedSpans t old).map fun s => ⟨s, renamed old new (s.slice t)⟩) := by
  have spans := (usedSpans_tokens old reads).map fun s => (⟨s, renamed old new (s.slice t)⟩ : Splice)
  rwa [List.map_map] at spans

/-- A renamed text is the text told again with the values renamed. -/
theorem renameClass?_retell (plain : ∀ c ∈ new, c ≠ '\x22' ∧ c ≠ '\x27') :
    ∃ n, renameClass? t old new =
      some (retell t (rewriting t (usedSpans t old) (renamed old new)) xs, n) := by
  have inside := Cursor.in_start t
  have told : Splice.weave t 0 (rewrites t (usedSpans t old) (renamed old new) xs) = _ :=
    weave_rewrites reads.tiles inside
  have perm := rewrites_usedSpans old new reads
  rw [← told]
  unfold renameClass?
  simp only [renames_eq, renames_total]
  split
  · rename_i unused
    have none : usedSpans t old = [] := by
      refine List.map_eq_nil_iff.mpr (List.filter_eq_nil_iff.mpr fun v member => ?_)
      simp [List.sum_eq_zero_iff_forall_eq_nat.mp unused _ (List.mem_map_of_mem member)]
    rw [none, List.map_nil, ← none] at perm
    have whole := slice_parts [] t []
    rw [List.append_nil] at whole
    rw [perm.eq_nil, Splice.weave]
    exact ⟨0, congrArg (fun t' => some (t', 0)) whole.symm⟩
  · have splices : (((classValues t).filter fun v => uses old (v.1.slice t) != 0).map fun v =>
        (renameValue t old new v, uses old (v.1.slice t))).map (·.1) =
          (usedSpans t old).map fun s => ⟨s, renamed old new (s.slice t)⟩ := by
      rw [usedSpans, List.map_map, List.map_map]
      refine List.map_congr_left fun v _ => ?_
      rw [Function.comp_apply, renameValue, escapeValue_plain plain]
      rfl
    rw [splices, Splice.applyAll?_weave perm (rewrites_on reads.tiles inside)
      (rewrites_ordered reads.tiles inside usedSpans_filled), Option.map_some]
    exact ⟨_, rfl⟩

/-- A token that holds a use of the name is the value of a class attribute. -/
theorem token_attribute {y : Tree} {b : Terminal} (token : y ∈ xs) (label : y.label = .terminal b)
    (used : y.span ∈ usedSpans t old) :
    ∃ a ∈ (Document.read t).records.flatMap (·.attributes), ClassName.isAttribute a.name = true ∧
      a.valueSpan = some y.span ∧ uses old (y.span.slice t) ≠ 0 ∧
      (b = .attributeValue → a.quote = none) := by
  obtain ⟨a, listed, named, value, uses, z, other, b', label', -, span, bare⟩ := used_token old reads used
  have apart : xs.Pairwise fun x y => ∀ s ∈ some x.span, ∀ u ∈ some y.span, s.Apart u := by
    refine (tiles_ordered reads.tiles (Cursor.in_start t)).imp fun before s first u second => ?_
    cases first
    cases second
    exact Or.inl before
  obtain rfl := Span.eq_of_apart apart other token (congrArg some span) rfl (usedSpans_filled y.span used)
  rw [label] at label'
  cases label'
  exact ⟨a, listed, named, value, uses, bare⟩

end Reading

/-- A new name can stand in each value that uses the old one: it can be read, does not begin a comment, and
where the value has no quotation marks, all its characters may stand in such a value. -/
structure Fits (t old new : Text) : Prop where
  readable : '\x00' ∉ new
  shut : opensComment new = false
  bare : ∀ a ∈ (Document.read t).records.flatMap (·.attributes), ClassName.isAttribute a.name = true →
    a.quote = none → ∀ v ∈ a.value, uses old v ≠ 0 → ∀ c ∈ new, Lexeme.isValueChar c = true

/-- The values with the new name fill their places. -/
theorem fills_rewriting {xs : List Tree} {x : Tree} (reads : Pile.start.Reads t xs x)
    (closed : commentsClosed t = true) (word : new ≠ [])
    (solid : ∀ c ∈ new, isBlank c = false ∧ c ≠ '\x22' ∧ c ≠ '\x27') (fits : Fits t old new) :
    Pile.Fills (rewriting t (usedSpans t old) (renamed old new)) xs := by
  intro y token b label sort
  have fills := reads.fills closed (Cursor.in_start t) y token b label sort
  unfold rewriting
  split
  · rename_i chosen
    have used : y.span ∈ usedSpans t old := by simpa using (Bool.and_eq_true_iff.mp chosen).2
    obtain ⟨a, listed, named, value, uses, bare⟩ := token_attribute old reads token label used
    refine fills_renamed word solid fits.readable fits.shut (fun plain => ?_) sort fills
    refine fits.bare a listed named (bare plain) _ ?_ uses
    rw [(settled_of_mem listed).read, value]
    rfl
  · exact fills

def renamedIn (old new : Text) (a : Attribute) : Option Text :=
  if ClassName.isAttribute a.name then a.value.map (renamed old new) else a.value

/-- An element stays what it is and only the old name in its class values becomes the new one. -/
structure Keeps (old new : Text) (r r' : Record) : Prop where
  tag : r'.tag = r.tag
  path : r'.path = r.path
  parent : r'.parent = r.parent
  children : r'.children = r.children
  subtreeEnd : r'.subtreeEnd = r.subtreeEnd
  selfClosing : r'.selfClosing = r.selfClosing
  attributes : List.Forall₂ (fun a a' => a'.name = a.name ∧ a'.value = renamedIn old new a)
    r.attributes r'.attributes

/-- The tale of a renaming tells the value of an attribute as the renaming has it. -/
theorem rewriting_value {a : Attribute} {b : Terminal} {s : Span}
    (member : a ∈ (Document.read t).records.flatMap (·.attributes)) (value : a.valueSpan = some s)
    (sort : b.isValue = true) :
    some (rewriting t (usedSpans t old) (renamed old new) b s) = renamedIn old new a := by
  have read : a.value = some (s.slice t) := by rw [(settled_of_mem member).read, value]; rfl
  rw [rewriting, sort, Bool.true_and, renamedIn, read, Option.map_some]
  by_cases used : s ∈ usedSpans t old
  · obtain ⟨a', member', named', value', -⟩ := mem_usedSpans.mp used
    obtain rfl := Span.eq_of_apart (read_values_apart t) member' member value' value
      (usedSpans_filled s used)
    rw [if_pos (by simpa using used), if_pos named']
  · rw [if_neg (by simpa using used)]
    split
    · rename_i named
      rw [renamed_of_uses_eq_zero]
      by_contra uses
      exact used (mem_usedSpans.mpr ⟨a, member, named, value, uses⟩)
    · rfl

def toldIn (t t' old new : Text) : Bond := fun b s s' =>
  s'.slice t' = rewriting t (usedSpans t old) (renamed old new) b s

theorem value_toldIn {t' : Text} {a a' : Attribute} (alike : Attribute.Alike (toldIn t t' old new) a a')
    (member : a ∈ (Document.read t).records.flatMap (·.attributes))
    (member' : a' ∈ (Document.read t').records.flatMap (·.attributes)) :
    a'.value = renamedIn old new a := by
  have read := (settled_of_mem member).read
  have read' := (settled_of_mem member').read
  have values := alike.value
  cases place : a.valueSpan with
  | none =>
    cases place' : a'.valueSpan with
    | none =>
      rw [read', place', renamedIn, read, place]
      exact (ite_self _).symm
    | some s' =>
      rw [place, place'] at values
      cases values
  | some s =>
    cases place' : a'.valueSpan with
    | none =>
      rw [place, place'] at values
      cases values
    | some s' =>
      rw [place, place'] at values
      cases values with
      | some bound =>
        rcases bound with ⟨b, sort, -, told⟩ | ⟨empty, empty'⟩
        · have kind : b.isValue = true := by cases b <;> cases sort <;> rfl
          rw [read', place', ← rewriting_value member place kind]
          exact congrArg some told
        · rw [empty', renamedIn, empty]
          exact (ite_self _).symm

/-- Elements that are alike up to what is told are those of the text before and after the renaming. -/
theorem keeps_toldIn {t' : Text} {r r' : Record} (alike : Record.Alike (toldIn t t' old new) r r')
    (member : r ∈ (Document.read t).records) (member' : r' ∈ (Document.read t').records) :
    Keeps old new r r' where
  tag := alike.tag
  path := alike.path
  parent := alike.parent
  children := alike.children
  subtreeEnd := alike.subtreeEnd
  selfClosing := alike.selfClosing
  attributes := forall₂_of_mem alike.attributes fun _ listed _ listed' alike =>
    ⟨alike.name, value_toldIn alike (List.mem_flatMap_of_mem member listed)
      (List.mem_flatMap_of_mem member' listed')⟩

theorem binds_toldIn (t t' old new : Text) :
    Node.Binds t' (Tale.tie (rewriting t (usedSpans t old) (renamed old new))) (toldIn t t' old new) := by
  rintro a s c d tied inside ⟨n, rfl⟩
  have parts : c.rest.take n ++ c.rest.drop n = _ ++ c.rest.drop n :=
    (List.take_append_drop n c.rest).trans tied
  exact (Cursor.slice_skip inside n).trans (List.append_cancel_right parts)

theorem names_toldIn (t t' old new : Text) : Names t t' (toldIn t t' old new) := by
  intro a s s' name told
  refine told.trans (rewriting_keeps a s ?_)
  rcases name with tag | rfl
  · revert tag
    cases a <;> decide
  · rfl

/-- Where a text is read without faults, so is the renamed one, and the two are read alike. -/
theorem renameClass?_alike {xs : List Tree} {x : Tree} (reads : Pile.start.Reads t xs x)
    (closed : commentsClosed t = true) {role : Text} (accepted : checkClassName role new = .ok ())
    (fits : Fits t old new) :
    ∃ t' n, renameClass? t old new = some (t', n) ∧ isFaultless t' = true ∧
      Tree.Alike (Tale.tie (rewriting t (usedSpans t old) (renamed old new)))
        (Reader.read t) (Reader.read t') := by
  obtain ⟨word, solid⟩ := word_of_checkClassName accepted
  obtain ⟨n, renames⟩ := renameClass?_retell old new reads fun c member => (solid c member).2
  obtain ⟨xs', x', reads', alike⟩ := reads.retold rewriting_keeps closed (Cursor.in_start t)
    (fills_rewriting reads closed word solid fits) (Or.inl ⟨rfl, rfl, rfl⟩) Pile.alike_start
    (show (Cursor.start _).rest = _ from rfl)
  rw [← Pile.read_of_reads reads, ← Pile.read_of_reads reads'] at alike
  exact ⟨_, n, renames, isFaultless_iff.mpr ⟨xs', x', reads'⟩, alike⟩

theorem keeps_of_alike {t' : Text} (ruled : (Reader.read t).Ruled)
    (alike : Tree.Alike (Tale.tie (rewriting t (usedSpans t old) (renamed old new)))
      (Reader.read t) (Reader.read t')) :
    (Document.read t').roots = (Document.read t).roots ∧
      List.Forall₂ (Keeps old new) (Document.read t).records (Document.read t').records := by
  obtain ⟨roots, records⟩ := Document.alike_read (binds_toldIn t t' old new) (names_toldIn t t' old new)
    alike ruled
  exact ⟨roots, forall₂_of_mem records fun _ member _ member' alike => keeps_toldIn alike member member'⟩

/-- In a text that is read without a fault and whose comments are closed, renaming a class to a name that
fits gives a text that is read without a fault too, with the same elements, their tags, paths, order and
nesting, and with the same attributes, whose values differ in the name only. -/
theorem renaming_keeps_structure {t old new role : Text} (faultless : isFaultless t = true)
    (closed : commentsClosed t = true) (accepted : checkClassName role new = .ok ())
    (fits : Fits t old new) :
    ∃ t' n, renameClass? t old new = some (t', n) ∧ isFaultless t' = true ∧
      (Document.read t').roots = (Document.read t).roots ∧
      List.Forall₂ (Keeps old new) (Document.read t).records (Document.read t').records := by
  obtain ⟨xs, x, reads⟩ := isFaultless_iff.mp faultless
  obtain ⟨t', n, renames, again, alike⟩ := renameClass?_alike reads closed accepted fits
  have ruled : (Reader.read t).Ruled := by
    rw [Pile.read_of_reads reads]
    exact reads.ruled Pile.regular_start
  exact ⟨t', n, renames, again, keeps_of_alike ruled alike⟩

/-- A quoted value takes a name with a `>`; the same word in another attribute stays. -/
theorem quotedClass_keeps_structure :
    isFaultless "<p class=\"a b\" id=a>x</p>".toList = true ∧
      ∃ t' n, renameClass? "<p class=\"a b\" id=a>x</p>".toList "a".toList "c>d".toList = some (t', n) ∧
        isFaultless t' = true ∧
        (Document.read t').roots = (Document.read "<p class=\"a b\" id=a>x</p>".toList).roots ∧
        List.Forall₂ (Keeps "a".toList "c>d".toList)
          (Document.read "<p class=\"a b\" id=a>x</p>".toList).records (Document.read t').records := by
  have faultless : isFaultless "<p class=\"a b\" id=a>x</p>".toList = true := by decide +kernel
  have quoted : ((Document.read "<p class=\"a b\" id=a>x</p>".toList).records.flatMap (·.attributes)).all
      (fun a => !ClassName.isAttribute a.name || a.quote.isSome) = true := by decide +kernel
  refine ⟨faultless, renaming_keeps_structure faultless (by decide +kernel)
    (show checkClassName "new".toList "c>d".toList = .ok () from rfl) ⟨by decide, by decide, ?_⟩⟩
  intro a member named bare
  have marks := List.all_eq_true.mp quoted a member
  rw [named, bare] at marks
  cases marks

/-- In a value without quotation marks, a name with a `>` ends the tag: the value becomes another one than
the renaming makes it. -/
theorem bareClass_breaks_off :
    (checkClassName "new".toList "b>c".toList).isOk = true ∧ isFaultless "<p class=a>x</p>".toList = true ∧
      renameClass? "<p class=a>x</p>".toList "a".toList "b>c".toList =
        some ("<p class=b>c>x</p>".toList, 1) ∧
      ((Document.read "<p class=a>x</p>".toList).records.flatMap (·.attributes)).map
        (renamedIn "a".toList "b>c".toList) = [some "b>c".toList] ∧
      ((Document.read "<p class=b>c>x</p>".toList).records.flatMap (·.attributes)).map (·.value) =
        [some "b".toList] := by
  decide +kernel

-- a comment that the text leaves open takes in what follows, once a new name closes it
example : renameClass? "<p title=\"<!--\" class=a>x</p>".toList "a".toList "--".toList =
      some ("<p title=\"<!--\" class=-->x</p>".toList, 1) ∧
    (Document.read "<p title=\"<!--\" class=a>x</p>".toList).records.length = 1 ∧
    (Document.read "<p title=\"<!--\" class=-->x</p>".toList).records.length = 0 := by
  decide +kernel

end Edit

end TemplateMarkup
