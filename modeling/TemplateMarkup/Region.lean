import TemplateMarkup.Text.Letter
import TemplateMarkup.Text.Search

/-!
Regions of a template that hold no markup: code in braces after a directive, and styles between their
tags. Code is not read as code; only its braces are counted. A region that does not close is passed
over.
-/
namespace TemplateMarkup

inductive RegionKind
  | code
  | style
deriving DecidableEq, Repr

structure Region where
  kind : RegionKind
  /-- What the delimiters enclose, without blanks at its ends. -/
  content : Text
  /-- From the marker or the opening tag through the closing delimiter. -/
  span : Span
deriving DecidableEq, Repr

namespace Region

/-- The text up to the brace that closes one opened before, and the text after it; `depth` more
braces are open. -/
def closeBrace (depth : Nat) : Text → Option (Text × Text)
  | [] => none
  | c :: t =>
    if c = '\x7b' then (closeBrace (depth + 1) t).map fun (inside, after) => (c :: inside, after)
    else if c = '\x7d' then
      if depth = 0 then some ([], t)
      else (closeBrace (depth - 1) t).map fun (inside, after) => (c :: inside, after)
    else (closeBrace depth t).map fun (inside, after) => (c :: inside, after)

/-- What comes before the first opening brace, and what it and the brace that closes it enclose. -/
def braced? (t : Text) : Option (Text × Text) :=
  match t.dropWhile (· != '\x7b') with
  | [] => none
  | _ :: rest => (closeBrace 0 rest).map fun (inside, _) => (t.takeWhile (· != '\x7b'), inside)

/-- The marker is a word of its own if no letter, number or underscore follows it. -/
def endsWord (after : Text) : Bool :=
  match after with
  | c :: _ => !(isLetterOrNumber c || c == '_')
  | [] => true

def markers (marker t : Text) : List (Nat × Text) :=
  (Text.occurrences marker t).filter fun (_, after) => endsWord after

def ofMarker? (marker : Text) (start : Nat) (after : Text) : Option Region :=
  (braced? after).map fun (before, inside) =>
    { kind := .code, content := Text.trim inside
      span := ⟨start, start + Text.bytes marker + Text.bytes before + 1 + Text.bytes inside + 1⟩ }

/-- The regions at the given occurrences of a marker, from an offset on, without overlaps. -/
def ofMarkers (marker : Text) (resume : Nat) : List (Nat × Text) → List Region
  | [] => []
  | (start, after) :: rest =>
    if start < resume then ofMarkers marker resume rest
    else
      match ofMarker? marker start after with
      | some r => r :: ofMarkers marker r.span.stop rest
      | none => ofMarkers marker resume rest

def withMarker (marker t : Text) : List Region := ofMarkers marker 0 (markers marker t)

/-- The content of the first marker's region, if that closes. -/
def firstContent? (marker t : Text) : Option Text :=
  (markers marker t).head?.bind fun (_, after) =>
    (braced? after).map fun (_, inside) => Text.trim inside

def directives : List Text := ["@code".toList, "@functions".toList]

def codeIn (t : Text) : List Region :=
  (directives.flatMap fun d => withMarker d t).mergeSort fun a b =>
    decide (a.span.start ≤ b.span.start)

/-- Letters that match a letter of a tag's name whatever their case; a long s counts as an s. -/
def foldsTo (letter c : Char) : Bool := c.toLower == letter || (letter == 's' && c == 'ſ')

/-- What follows a word, whatever its case. -/
def stripFold? : Text → Text → Option Text
  | [], t => some t
  | _ :: _, [] => none
  | l :: word, c :: t => if foldsTo l c then stripFold? word t else none

/-- What follows an opening style tag that stands here. -/
def styleOpen? (t : Text) : Option Text :=
  (stripFold? "<style".toList t).bind fun after =>
    match after with
    | c :: _ => if isWordChar c then none else (after.dropWhile (· != '>')).tail?
    | [] => none

/-- What follows a closing style tag that stands here. -/
def styleClose? (t : Text) : Option Text :=
  (stripFold? "</style".toList t).bind fun after =>
    match after.dropWhile isBlank with
    | '>' :: rest => some rest
    | _ => none

/-- The text before the first closing style tag, and the text after that tag. -/
def untilStyleClose? (t : Text) : Option (Text × Text) :=
  match styleClose? t with
  | some after => some ([], after)
  | none =>
    match t with
    | [] => none
    | c :: t => (untilStyleClose? t).map fun (inside, after) => (c :: inside, after)

/-- The styles of a text of `size` bytes in all, of which `t` is the end. -/
def stylesFrom (size : Nat) : (fuel : Nat) → Text → List Region
  | 0, _ => []
  | _, [] => []
  | fuel + 1, c :: t =>
    match (styleOpen? (c :: t)).bind untilStyleClose? with
    | some (inside, after) =>
      { kind := .style, content := Text.trim inside
        span := ⟨size - Text.bytes (c :: t), size - Text.bytes after⟩ } :: stylesFrom size fuel after
    | none => stylesFrom size fuel t

def stylesIn (t : Text) : List Region := stylesFrom (Text.bytes t) (t.length + 1) t

def firstStyle? (t : Text) : Option Text := (stylesIn t).head?.map (·.content)

/-- Comments, then code, then styles are taken out once. -/
def removeOnce (t : Text) : Text :=
  let t := Text.removeDelimited "@*" "*@" t
  let t := directives.foldl (fun t d => Text.outside t ((withMarker d t).map (·.span))) t
  Text.outside t ((stylesIn t).map (·.span))

/-- Regions are taken out until none is left. -/
def removeAllFrom : (fuel : Nat) → Text → Text
  | 0, t => t
  | fuel + 1, t =>
    let next := removeOnce t
    if next = t then t else removeAllFrom fuel next

/-- The markup of a template: what is left without comments, code and styles. Taking out one region
may make up another, so that is repeated. -/
def markupOf (t : Text) : Text := Text.trim (removeAllFrom (t.length + 1) t)

end Region

end TemplateMarkup
