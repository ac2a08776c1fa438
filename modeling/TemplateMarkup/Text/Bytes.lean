import TemplateMarkup.Text.Basic

/-!
The UTF-8 form of texts.
-/
namespace TemplateMarkup.Text

def encodeChar (c : Char) : List Nat :=
  let n := c.toNat
  if n < 0x80 then [n]
  else if n < 0x800 then [0xC0 + n / 0x40, 0x80 + n % 0x40]
  else if n < 0x10000 then [0xE0 + n / 0x1000, 0x80 + n / 0x40 % 0x40, 0x80 + n % 0x40]
  else [0xF0 + n / 0x40000, 0x80 + n / 0x1000 % 0x40, 0x80 + n / 0x40 % 0x40, 0x80 + n % 0x40]

def encode (t : Text) : List Nat := t.flatMap encodeChar

/-- The last six bits of a byte that continues a character. -/
def continuation? (b : Nat) : Option Nat := if 0x80 ≤ b ∧ b < 0xC0 then some (b - 0x80) else none

/-- The character with a number, if it is one that needs more bytes than there would be for a number
below `least`. -/
def charFrom? (least n : Nat) : Option Char :=
  if least ≤ n ∧ n.isValidChar then some (Char.ofNat n) else none

def decode? : List Nat → Option Text
  | [] => some []
  | a :: rest =>
    if a < 0x80 then (decode? rest).map (Char.ofNat a :: ·)
    else if 0xC0 ≤ a ∧ a < 0xE0 then
      match rest with
      | b :: rest => do
        let c ← charFrom? 0x80 ((a - 0xC0) * 0x40 + (← continuation? b))
        (decode? rest).map (c :: ·)
      | _ => none
    else if 0xE0 ≤ a ∧ a < 0xF0 then
      match rest with
      | b :: c :: rest => do
        let d ← charFrom? 0x800
          (((a - 0xE0) * 0x40 + (← continuation? b)) * 0x40 + (← continuation? c))
        (decode? rest).map (d :: ·)
      | _ => none
    else if 0xF0 ≤ a ∧ a < 0xF8 then
      match rest with
      | b :: c :: d :: rest => do
        let e ← charFrom? 0x10000
          ((((a - 0xF0) * 0x40 + (← continuation? b)) * 0x40 + (← continuation? c)) * 0x40 +
            (← continuation? d))
        (decode? rest).map (e :: ·)
      | _ => none
    else none

end TemplateMarkup.Text
