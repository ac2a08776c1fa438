import TemplateMarkup.Text.Basic
import TemplateMarkup.Span

/-!
Searching texts: occurrences of a part, delimited pieces, and what lies outside of spans.
-/
namespace TemplateMarkup.Text

/-- The text before the first occurrence of a part and the text after it. -/
def splitAt? (part : Text) (t : Text) : Option (Text × Text) :=
  match stripLead? part t with
  | some rest => some ([], rest)
  | none =>
    match t with
    | [] => none
    | c :: t => (splitAt? part t).map fun (before, after) => (c :: before, after)

/-- The occurrences of a part that do not overlap, from the left: the offset of each and what follows
it. The next `skip` characters are passed over. -/
def occurrencesFrom (part : Text) (skip offset : Nat) : Text → List (Nat × Text)
  | [] => if skip = 0 ∧ part = [] then [(offset, [])] else []
  | c :: t =>
    match skip with
    | k + 1 => occurrencesFrom part k (offset + c.utf8Size) t
    | 0 =>
      match stripLead? part (c :: t) with
      | some rest => (offset, rest) :: occurrencesFrom part (part.length - 1) (offset + c.utf8Size) t
      | none => occurrencesFrom part 0 (offset + c.utf8Size) t

/-- The occurrences of a part that do not overlap; an empty part occurs before every character and at
the end. -/
def occurrences (part t : Text) : List (Nat × Text) := occurrencesFrom part 0 0 t

/-- Every piece from `opening` through the next `closing` is taken out, from the left. -/
def removeDelimitedFrom (opening closing : Text) : (fuel : Nat) → Text → Text
  | 0, t => t
  | _, [] => []
  | fuel + 1, c :: t =>
    match (stripLead? opening (c :: t)).bind (splitAt? closing) with
    | some (_, after) => removeDelimitedFrom opening closing fuel after
    | none => c :: removeDelimitedFrom opening closing fuel t

def removeDelimited (opening closing t : Text) : Text :=
  removeDelimitedFrom opening closing (t.length + 1) t

/-- What is left of a text from an offset on when ascending spans are taken out. -/
def outsideFrom (t : Text) (offset : Nat) : List Span → Text
  | [] => (dropBytes offset t).getD []
  | s :: ss => slice t offset s.start ++ outsideFrom t s.stop ss

/-- What is left of a text when ascending spans are taken out. -/
def outside (t : Text) (spans : List Span) : Text := outsideFrom t 0 spans

end TemplateMarkup.Text
