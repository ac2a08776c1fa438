import TemplateMarkup.Text.Basic
import TemplateMarkup.Text.Fold
import TemplateMarkup.Text.Letter

/-!
Sets of characters, as patterns describe them.
-/
namespace TemplateMarkup

inductive CharSet
  | ranges (rs : List (Nat × Nat))
  | categories (cs : List Category)
  | letter
  | word
  | digit
  | blank
  | any
  | union (a b : CharSet)
  | inter (a b : CharSet)
  | diff (a b : CharSet)
  | complement (a : CharSet)
  /-- The characters that differ from those of a set in case alone. -/
  | folded (a : CharSet)
  /-- The same for the letters of ASCII only. -/
  | foldedAscii (a : CharSet)

namespace CharSet

def none : CharSet := ranges []

def single (c : Char) : CharSet := ranges [(c.toNat, c.toNat)]

def asciiWord : CharSet := ranges [(0x30, 0x39), (0x41, 0x5A), (0x5F, 0x5F), (0x61, 0x7A)]

def asciiDigit : CharSet := ranges [(0x30, 0x39)]

def asciiBlank : CharSet := ranges [(0x09, 0x0D), (0x20, 0x20)]

def symmetric (a b : CharSet) : CharSet := union (diff a b) (diff b a)

/-- A code point and the ASCII letter that differs from it in case. -/
def asciiFoldClass (n : Nat) : List Nat :=
  if 0x41 ≤ n ∧ n ≤ 0x5A then [n, n + 32] else if 0x61 ≤ n ∧ n ≤ 0x7A then [n, n - 32] else [n]

def contains : CharSet → Nat → Bool
  | ranges rs, n => inRanges rs n
  | categories cs, n => cs.contains (Category.ofCode n)
  | letter, n => isLetter (Char.ofNat n)
  | word, n => isWordChar (Char.ofNat n)
  | digit, n => isDecimalDigit (Char.ofNat n)
  | blank, n => isBlank (Char.ofNat n)
  | any, _ => true
  | union a b, n => contains a n || contains b n
  | inter a b, n => contains a n && contains b n
  | diff a b, n => contains a n && !contains b n
  | complement a, n => !contains a n
  | folded a, n => (foldClass n).any (contains a)
  | foldedAscii a, n => (asciiFoldClass n).any (contains a)

def isAscii (s : CharSet) : Bool := (List.range' 128 128).all fun n => !s.contains n

end CharSet

end TemplateMarkup
