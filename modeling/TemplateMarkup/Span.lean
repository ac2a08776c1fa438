import TemplateMarkup.Text.Basic

/-!
Spans: the bytes of a text from one offset up to another.
-/
namespace TemplateMarkup

/-- The bytes from `start` up to, not including, `stop`. -/
structure Span where
  start : Nat
  stop : Nat
deriving DecidableEq, Repr

namespace Span

def point (offset : Nat) : Span := ⟨offset, offset⟩

def size (s : Span) : Nat := s.stop - s.start

def isEmpty (s : Span) : Bool := s.start == s.stop

def contains (s : Span) (offset : Nat) : Bool := s.start ≤ offset && offset < s.stop

def encloses (s other : Span) : Bool := s.start ≤ other.start && other.stop ≤ s.stop

/-- The text of a span, if its ends lie between characters of the text. -/
def slice? (s : Span) (t : Text) : Option Text := Text.slice? t s.start s.stop

def slice (s : Span) (t : Text) : Text := Text.slice t s.start s.stop

end Span

end TemplateMarkup
