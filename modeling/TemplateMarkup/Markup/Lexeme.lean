import TemplateMarkup.Text.Basic
import TemplateMarkup.Markup.State

/-!
Tokens that their characters alone decide. A state selects one of a few modes, and a mode names the
tokens that are looked for. The longest token wins; where none is complete, `stuck` tells how many
characters were read in vain.
-/
namespace TemplateMarkup.Markup

inductive Mode
  | recovery
  | nodes
  | tag
  | value
  | quoted (quote : Quote)
  | declaration
deriving DecidableEq, Repr

def State.mode : State → Mode
  | .recovery | .finished | .tagOpened _ | .endOpened _ | .rawEndOpened _ | .endNamed _
  | .strayOpened _ | .strayNamed _ | .declarationOpened _ | .declarationBody _ | .quoteText _ _ =>
    .recovery
  | .tagNamed _ | .tagAttributes _ | .rawTagNamed _ | .rawTagAttributes _ | .joinAttributes _
  | .attributeNamed _ | .attributePlain _ | .attributeQuoted _ | .quoteEmpty _ _ | .quoteFull _ _
  | .rawOpened _ _ | .rawContent _ _ | .rawTagBare _ | .rawTagFull _ => .tag
  | .attributeEquals _ => .value
  | .quoteOpened q _ => .quoted q
  | .declarationWord _ => .declaration
  | _ => .nodes

inductive Lexeme
  /-- A token of the given number of characters. -/
  | found (token : Terminal) (length : Nat)
  /-- No token; so many characters were read. -/
  | stuck (length : Nat)
deriving DecidableEq, Repr

namespace Lexeme

def isHexDigit (c : Char) : Bool :=
  c.isDigit || ('a' ≤ c && c ≤ 'f') || ('A' ≤ c && c ≤ 'F')

/-- How many of the first `most` characters in a row satisfy `p`. -/
def runLength (p : Char → Bool) (most : Nat) (t : Text) : Nat := ((t.take most).takeWhile p).length

/-- An entity whose part before its semicolon has `lead` characters and then the run `run`. -/
def closeEntity (lead run : Nat) (t : Text) : Lexeme :=
  if run = 0 then stuck lead
  else if (t.drop run).head? = some ';' then found .entity (lead + run + 1)
  else found .entity (lead + run)

/-- An entity: `&`, then a letter run, `#` and a decimal run, or `#x` and a hexadecimal run; a
semicolon may close it. The text is what follows `&`. -/
def entity : Text → Lexeme
  | '#' :: 'x' :: t | '#' :: 'X' :: t => closeEntity 3 (runLength isHexDigit 6 t) t
  | '#' :: t => closeEntity 2 (runLength Char.isDigit 5 t) t
  | t => closeEntity 1 (runLength Char.isAlpha 30 t) t

/-- How many characters the two texts share at their start, up to the case of letters. -/
def sharedLead : Text → Text → Nat
  | a :: s, b :: t => if a.toLower = b.toLower then 1 + sharedLead s t else 0
  | _, _ => 0

def doctypeWord (t : Text) : Lexeme :=
  let n := sharedLead "doctype".toList t
  if n = 7 then found .doctypeWord 7 else stuck n

/-- Tokens that open a tag: `<!`, `</` or `<`. -/
def angle : Text → Lexeme
  | '!' :: _ => found .declarationOpen 2
  | '/' :: _ => found .endOpen 2
  | _ => found .tagOpen 1

def isNameChar (c : Char) : Bool :=
  !isMarkupBlank c && !(['\x00', '<', '>', '\x22', '\x27', '/', '='].contains c)

def isValueChar (c : Char) : Bool :=
  !isMarkupBlank c && !(['\x00', '<', '>', '\x22', '\x27', '='].contains c)

def isTextChar (c : Char) : Bool := !(['\x00', '<', '>', '&'].contains c)

/-- A run of characters that satisfy `p`, as one token. -/
def run (token : Terminal) (p : Char → Bool) (t : Text) : Lexeme :=
  match (t.takeWhile p).length with
  | 0 => stuck 0
  | n + 1 => found token (n + 1)

/-- Text goes on up to the next markup character but ends with a character that is not blank. -/
def text (t : Text) : Lexeme :=
  match ((t.takeWhile isTextChar).reverse.dropWhile isMarkupBlank).length with
  | 0 => stuck 0
  | n + 1 => found .text (n + 1)

def selfClose : Text → Lexeme
  | '>' :: _ => found .selfClose 2
  | _ => stuck 1

/-- The token at the start of a text that no blank precedes. -/
def recovery : Text → Lexeme
  | [] => found .endOfText 0
  | '<' :: t => angle t
  | '>' :: _ => found .tagClose 1
  | '/' :: t => selfClose t
  | '=' :: _ => found .equals 1
  | '&' :: t => entity t
  | '\x27' :: _ => found .apostrophe 1
  | '\x22' :: _ => found .quotationMark 1
  | t => doctypeWord t

def nodes : Text → Lexeme
  | [] => found .endOfText 0
  | '<' :: t => angle t
  | '&' :: t => entity t
  | t => text t

def tag : Text → Lexeme
  | '>' :: _ => found .tagClose 1
  | '/' :: t => selfClose t
  | '=' :: _ => found .equals 1
  | '<' :: '/' :: _ => found .endOpen 2
  | '<' :: _ => stuck 1
  | t => run .attributeName isNameChar t

def value : Text → Lexeme
  | '\x27' :: _ => found .apostrophe 1
  | '\x22' :: _ => found .quotationMark 1
  | t => run .attributeValue isValueChar t

def quoted : Quote → Text → Lexeme
  | .single, '\x27' :: _ => found .apostrophe 1
  | .single, t => run .apostropheText (fun c => c != '\x27' && c != '\x00') t
  | .double, '\x22' :: _ => found .quotationMark 1
  | .double, t => run .quotationText (fun c => c != '\x22' && c != '\x00') t

def declaration (t : Text) : Lexeme := run .declarationBody (fun c => c != '>' && c != '\x00') t

end Lexeme

/-- A place, or a token between two places. -/
inductive Reading
  | found (token : Terminal) (start stop : Cursor)
  /-- Nothing was found from `start` on; reading came as far as `reached`. -/
  | stuck (start reached : Cursor)

namespace Mode

/-- Quoted text and the body of a declaration keep the blanks before them. -/
def skipsBlanks : Mode → Bool
  | quoted _ | declaration => false
  | _ => true

def lexeme : Mode → Text → Lexeme
  | recovery => Lexeme.recovery
  | nodes => Lexeme.nodes
  | tag => Lexeme.tag
  | value => Lexeme.value
  | quoted q => Lexeme.quoted q
  | declaration => Lexeme.declaration

def read (mode : Mode) (c : Cursor) : Reading :=
  let start := if mode.skipsBlanks then c.skipWhile isMarkupBlank else c
  match mode.lexeme start.rest with
  | .found t n => .found t start (start.skip n)
  | .stuck n => .stuck start (start.skip n)

end Mode

end TemplateMarkup.Markup
