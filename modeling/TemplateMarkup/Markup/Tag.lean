import TemplateMarkup.Text.Basic

/-!
Tags of open elements, compared by their capital names. Markup knows a fixed set of names; all other
names are custom tags, which share one sort. A void element has no content of its own, and some
elements end where a tag begins that they cannot contain.
-/
namespace TemplateMarkup

inductive Tag
  | known (name : Text)
  | custom (name : Text)
  /-- A tag whose name was not kept. -/
  | lost
deriving DecidableEq, Repr

namespace Tag

def voidNames : List Text :=
  ["AREA", "BASE", "BASEFONT", "BGSOUND", "BR", "COL", "COMMAND", "EMBED", "FRAME", "HR", "IMAGE",
    "IMG", "INPUT", "ISINDEX", "KEYGEN", "LINK", "MENUITEM", "META", "NEXTID", "PARAM", "SOURCE",
    "TRACK", "WBR"].map String.toList

def contentNames : List Text :=
  ["A", "ABBR", "ADDRESS", "ARTICLE", "ASIDE", "AUDIO", "B", "BDI", "BDO", "BLOCKQUOTE", "BODY",
    "BUTTON", "CANVAS", "CAPTION", "CITE", "CODE", "COLGROUP", "DATA", "DATALIST", "DD", "DEL",
    "DETAILS", "DFN", "DIALOG", "DIV", "DL", "DT", "EM", "FIELDSET", "FIGCAPTION", "FIGURE",
    "FOOTER", "FORM", "H1", "H2", "H3", "H4", "H5", "H6", "HEAD", "HEADER", "HGROUP", "HTML", "I",
    "IFRAME", "INS", "KBD", "LABEL", "LEGEND", "LI", "MAIN", "MAP", "MARK", "MATH", "MENU",
    "METER", "NAV", "NOSCRIPT", "OBJECT", "OL", "OPTGROUP", "OPTION", "OUTPUT", "P", "PICTURE",
    "PRE", "PROGRESS", "Q", "RB", "RP", "RT", "RTC", "RUBY", "S", "SAMP", "SCRIPT", "SECTION",
    "SELECT", "SLOT", "SMALL", "SPAN", "STRONG", "STYLE", "SUB", "SUMMARY", "SUP", "SVG", "TABLE",
    "TBODY", "TD", "TEMPLATE", "TEXTAREA", "TFOOT", "TH", "THEAD", "TIME", "TITLE", "TR", "U",
    "UL", "VAR", "VIDEO"].map String.toList

def paragraphEnders : List Text :=
  ["ADDRESS", "ARTICLE", "ASIDE", "BLOCKQUOTE", "DETAILS", "DIV", "DL", "FIELDSET", "FIGCAPTION",
    "FIGURE", "FOOTER", "FORM", "H1", "H2", "H3", "H4", "H5", "H6", "HEADER", "HR", "MAIN", "NAV",
    "OL", "P", "PRE", "SECTION"].map String.toList

def ofName (name : Text) : Tag :=
  if voidNames.contains name || contentNames.contains name then known name else custom name

def isVoid : Tag → Bool
  | known name => voidNames.contains name
  | _ => false

/-- Custom tags are of one sort; a known name is a sort of its own. -/
def sameSort : Tag → Tag → Bool
  | known a, known b => a == b
  | custom _, custom _ => true
  | _, _ => false

def isNamed (tag : Tag) (names : List String) : Bool :=
  match tag with
  | known name => names.any fun n => n.toList == name
  | _ => false

/-- Whether an element may hold a child with the given tag; otherwise the element ends before it. -/
def canContain (parent child : Tag) : Bool :=
  if parent.isNamed ["LI"] then !child.isNamed ["LI"]
  else if parent.isNamed ["DT", "DD"] then !child.isNamed ["DT", "DD"]
  else if parent.isNamed ["P"] then
    match child with
    | known name => !paragraphEnders.contains name
    | _ => true
  else if parent.isNamed ["COLGROUP"] then child.isNamed ["COL"]
  else if parent.isNamed ["RB", "RT", "RP"] then !child.isNamed ["RB", "RT", "RP"]
  else if parent.isNamed ["OPTGROUP"] then !child.isNamed ["OPTGROUP"]
  else if parent.isNamed ["TR"] then !child.isNamed ["TR"]
  else if parent.isNamed ["TD", "TH"] then !child.isNamed ["TD", "TH", "TR"]
  else true

def endsWithText (tag : Tag) : Bool := tag.isNamed ["HTML", "HEAD", "BODY"]

def recordSize : Tag → Nat
  | custom name => 2 + min name.length 255
  | _ => 1

/-- What the record keeps of a tag: the first 255 characters of a custom name. -/
def recorded : Tag → Tag
  | custom name => custom (name.take 255)
  | tag => tag

/-- The record of open tags, outermost first: it holds 1024 bytes, and a tag that finds no room is
lost together with all tags inside it. -/
def recordFrom (used : Nat) : List Tag → List Tag
  | [] => []
  | tag :: tags =>
    if used + tag.recordSize < 1024 then tag.recorded :: recordFrom (used + tag.recordSize) tags
    else List.replicate (tags.length + 1) lost

/-- The open tags, innermost first, as they are remembered from one token to the next. -/
def remember (tags : List Tag) : List Tag := (recordFrom 4 tags.reverse).reverse

end Tag

end TemplateMarkup
