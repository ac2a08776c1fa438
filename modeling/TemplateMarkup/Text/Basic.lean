/-!
Texts are lists of characters. Offsets into a text count the bytes of its UTF-8 form, so an offset
may lie outside the text or inside a character; `slice?` refuses such offsets. A cursor is a place in
a text.
-/
namespace TemplateMarkup

/-- The code point lies in one of the ranges, whose ends belong to them. -/
def inRanges (ranges : List (Nat × Nat)) (n : Nat) : Bool :=
  ranges.any fun r => r.1 ≤ n && n ≤ r.2

def isBlank (c : Char) : Bool :=
  let n := c.toNat
  (9 ≤ n && n ≤ 13) || n == 32 || n == 0x85 || n == 0xA0 || n == 0x1680 ||
    (0x2000 ≤ n && n ≤ 0x200A) || n == 0x2028 || n == 0x2029 || n == 0x202F || n == 0x205F ||
    n == 0x3000

/-- The blanks of markup: tab to carriage return, and the space. -/
def isMarkupBlank (c : Char) : Bool :=
  let n := c.toNat
  (9 ≤ n && n ≤ 13) || n == 32

theorem isBlank_of_isMarkupBlank {c : Char} (h : isMarkupBlank c = true) : isBlank c = true := by
  simp only [isMarkupBlank, isBlank, Bool.or_eq_true] at *
  grind

/-- A text; its offsets count UTF-8 bytes. -/
abbrev Text := List Char

instance : Coe String Text := ⟨String.toList⟩

namespace Text

def bytes : Text → Nat
  | [] => 0
  | c :: t => c.utf8Size + bytes t

/-- What follows the first `n` bytes, if they end between two characters. -/
def dropBytes : Nat → Text → Option Text
  | 0, t => some t
  | _ + 1, [] => none
  | n + 1, c :: t => if c.utf8Size ≤ n + 1 then dropBytes (n + 1 - c.utf8Size) t else none

/-- The characters of the first `n` bytes, if they end between two characters. -/
def takeBytes : Nat → Text → Option Text
  | 0, _ => some []
  | _ + 1, [] => none
  | n + 1, c :: t =>
    if c.utf8Size ≤ n + 1 then (takeBytes (n + 1 - c.utf8Size) t).map (c :: ·) else none

@[simp] theorem bytes_nil : bytes [] = 0 := rfl

@[simp] theorem bytes_cons (c : Char) (t : Text) : bytes (c :: t) = c.utf8Size + bytes t := rfl

@[simp] theorem bytes_append (s t : Text) : bytes (s ++ t) = bytes s + bytes t := by
  induction s with
  | nil => simp
  | cons c s ih => simp [ih, Nat.add_assoc]

@[simp] theorem dropBytes_zero (t : Text) : dropBytes 0 t = some t := by
  cases t <;> simp [dropBytes]

@[simp] theorem takeBytes_zero (t : Text) : takeBytes 0 t = some [] := by
  cases t <;> simp [takeBytes]

theorem dropBytes_append (s t : Text) : dropBytes (bytes s) (s ++ t) = some t := by
  induction s with
  | nil => simp
  | cons c s ih =>
    have hc := c.utf8Size_pos
    obtain ⟨k, hk⟩ : ∃ k, c.utf8Size + bytes s = k + 1 := ⟨c.utf8Size + bytes s - 1, by omega⟩
    simp only [bytes_cons, List.cons_append, hk, dropBytes]
    rw [if_pos (by omega), show k + 1 - c.utf8Size = bytes s by omega, ih]

theorem takeBytes_append (s t : Text) : takeBytes (bytes s) (s ++ t) = some s := by
  induction s with
  | nil => simp
  | cons c s ih =>
    have hc := c.utf8Size_pos
    obtain ⟨k, hk⟩ : ∃ k, c.utf8Size + bytes s = k + 1 := ⟨c.utf8Size + bytes s - 1, by omega⟩
    simp only [bytes_cons, List.cons_append, hk, takeBytes]
    rw [if_pos (by omega), show k + 1 - c.utf8Size = bytes s by omega, ih]
    rfl

/-- The text between two offsets; refused when an offset is outside the text, inside a character,
or when the second comes before the first. -/
def slice? (t : Text) (start stop : Nat) : Option Text :=
  if start ≤ stop then (dropBytes start t).bind (takeBytes (stop - start)) else none

theorem slice?_append (a b c : Text) :
    slice? (a ++ (b ++ c)) (bytes a) (bytes a + bytes b) = some b := by
  rw [slice?, if_pos (by omega), dropBytes_append, show bytes a + bytes b - bytes a = bytes b by omega]
  exact takeBytes_append b c

/-- The text between two offsets, or nothing where `slice?` refuses. -/
def slice (t : Text) (start stop : Nat) : Text := (slice? t start stop).getD []

/-- The line, counted from 0, of each place is the number of newlines before it. -/
def newlines (t : Text) : Nat := t.count '\n'

/-- A text of blanks only. -/
def isBlankText (t : Text) : Bool := t.all isBlank

def trimStart (t : Text) : Text := t.dropWhile isBlank

def trimEnd (t : Text) : Text := (t.reverse.dropWhile isBlank).reverse

def trim (t : Text) : Text := trimEnd (trimStart t)

def decimal (n : Nat) : Text := Nat.toDigits 10 n

/-- The ASCII capital letters become small; all else is kept. -/
def lowerAscii (t : Text) : Text := t.map Char.toLower

def equalsFold (s t : Text) : Bool := lowerAscii s == lowerAscii t

/-- What follows `lead` in a text that starts with it. -/
def stripLead? : Text → Text → Option Text
  | [], t => some t
  | _ :: _, [] => none
  | c :: lead, d :: t => if c = d then stripLead? lead t else none

theorem stripLead?_eq_some_iff {lead t rest : Text} :
    stripLead? lead t = some rest ↔ t = lead ++ rest := by
  induction lead generalizing t with
  | nil => simp [stripLead?, eq_comm]
  | cons c lead ih =>
    cases t with
    | nil => simp [stripLead?]
    | cons d t => by_cases h : c = d <;> simp [stripLead?, h, ih, eq_comm]

def startsWith (t lead : Text) : Bool := (stripLead? lead t).isSome

/-- `part` occurs somewhere in the text. -/
def includes (t part : Text) : Bool :=
  startsWith t part || match t with
    | [] => false
    | _ :: rest => includes rest part

/-- Every occurrence of a character gives way to a text. -/
def replaceChar (c : Char) (new : Text) (t : Text) : Text :=
  t.flatMap fun d => if d = c then new else [d]

/-- The pieces between newlines, the last one included even if it is empty. -/
def splitNewlines : Text → List Text
  | [] => [[]]
  | c :: t =>
    match splitNewlines t with
    | [] => [[c]]
    | line :: rest => if c = '\n' then [] :: line :: rest else (c :: line) :: rest

def dropReturn (line : Text) : Text :=
  match line.getLast? with
  | some '\r' => line.dropLast
  | _ => line

/-- The lines of a text: a newline ends a line, an empty last line does not count, and a carriage
return before a newline belongs to it. -/
def lines (t : Text) : List Text :=
  let pieces := splitNewlines t
  let whole := pieces.dropLast.map dropReturn
  match pieces.getLast? with
  | some [] => whole
  | some last => whole ++ [last]
  | none => whole

/-- The maximal runs of characters that are not blank, with `run` read so far in reverse. -/
def wordsFrom (run : Text) : Text → List Text
  | [] => if run.isEmpty then [] else [run.reverse]
  | c :: t =>
    if isBlank c then if run.isEmpty then wordsFrom [] t else run.reverse :: wordsFrom [] t
    else wordsFrom (c :: run) t

/-- The maximal runs of characters that are not blank. -/
def words (t : Text) : List Text := wordsFrom [] t

/-- Byte order of the UTF-8 forms, which is the order of the code points. -/
def lt : Text → Text → Bool
  | _, [] => false
  | [], _ :: _ => true
  | c :: s, d :: t => c.toNat < d.toNat || (c == d && lt s t)

def le (s t : Text) : Bool := !lt t s

/-- The texts in ascending order without repetitions. -/
def sortDistinct (ts : List Text) : List Text :=
  (ts.mergeSort le).foldr (fun t acc => if acc.head? = some t then acc else t :: acc) []

/-- Puts a named value in its place among values ordered by name; one of the same name gives way. -/
def insertNamed {α : Type} (name : Text) (value : α) : List (Text × α) → List (Text × α)
  | [] => [(name, value)]
  | (n, v) :: rest =>
    if n = name then (name, value) :: rest
    else if lt name n then (name, value) :: (n, v) :: rest
    else (n, v) :: insertNamed name value rest

/-- Named values in the order of their names; of several with one name the last counts. -/
def ofNamed {α : Type} (values : List (Text × α)) : List (Text × α) :=
  values.foldl (fun sorted v => insertNamed v.1 v.2 sorted) []

def joinWith (separator : Text) : List Text → Text
  | [] => []
  | [t] => t
  | t :: ts => t ++ separator ++ joinWith separator ts

end Text

/-- How many bytes and line ends come before a place, and what is still to be read. -/
structure Cursor where
  offset : Nat
  line : Nat
  rest : Text

namespace Cursor

def start (t : Text) : Cursor := ⟨0, 0, t⟩

/-- The place after the next `n` characters. -/
def skip (c : Cursor) (n : Nat) : Cursor :=
  let lead := c.rest.take n
  ⟨c.offset + Text.bytes lead, c.line + Text.newlines lead, c.rest.drop n⟩

/-- The place after the characters that satisfy `p`. -/
def skipWhile (c : Cursor) (p : Char → Bool) : Cursor := c.skip (c.rest.takeWhile p).length

def atEnd (c : Cursor) : Bool := c.rest.isEmpty

def byteOrderMark : Char := '\uFEFF'

/-- The place after a byte order mark that starts the text; all others stay. -/
def pastMark (c : Cursor) : Cursor :=
  if c.offset = 0 ∧ c.rest.head? = some byteOrderMark then c.skip 1 else c

end Cursor

end TemplateMarkup
