import TemplateMarkup.Span

/-!
Splices: replacements of spans of a text. They are applied one after the other from the back, so that
the offsets of those still to come hold. Splices that overlap work on text that is not theirs, or are
refused.
-/
namespace TemplateMarkup

structure Splice where
  span : Span
  replacement : Text
deriving DecidableEq, Repr

namespace Splice

/-- The splice that only puts text in. -/
def insertion (offset : Nat) (text : Text) : Splice := ⟨Span.point offset, text⟩

/-- The text with one span replaced, if the ends of the span lie between its characters. -/
def put? (t : Text) (s : Splice) : Option Text :=
  if s.span.start ≤ s.span.stop then do
    let before ← Text.takeBytes s.span.start t
    let after ← Text.dropBytes s.span.stop t
    return before ++ s.replacement ++ after
  else none

/-- Later splices go first; of splices that start together, the one that reaches further. -/
def goesFirst (a b : Splice) : Bool :=
  b.span.start < a.span.start || (a.span.start == b.span.start && b.span.stop ≤ a.span.stop)

def applyAll? (t : Text) (splices : List Splice) : Option Text :=
  (splices.mergeSort goesFirst).foldlM put? t

end Splice

end TemplateMarkup
