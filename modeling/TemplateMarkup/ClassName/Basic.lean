import TemplateMarkup.Text.Letter
import TemplateMarkup.Text.Basic

/-!
Which words count as names of style classes.
-/
namespace TemplateMarkup.ClassName

def attributeNames : List Text := ["class".toList, "CssClass".toList]

def isAttribute (name : Text) : Bool := attributeNames.any (Text.equalsFold · name)

/-- Words of code that are never class names. -/
def reserved : List Text :=
  ["true", "false", "null", "string", "int", "bool", "var"].map String.toList

/-- Common class names, trusted without a hyphen. -/
def utilities : List Text :=
  ["block", "inline", "flex", "grid", "table", "contents", "hidden", "container", "row", "col",
    "grow", "shrink", "wrap", "static", "fixed", "absolute", "relative", "sticky", "visible",
    "invisible", "active", "disabled", "show", "fade", "collapse", "collapsed", "open", "selected",
    "valid", "invalid", "italic", "underline", "uppercase", "lowercase", "capitalize", "truncate",
    "lead", "small", "border", "rounded", "shadow", "transition", "btn", "card", "badge", "alert",
    "nav", "navbar"].map String.toList

def isForbidden (c : Char) : Bool :=
  ['?', '|', '=', '!', '(', ')', ',', '+', '*', ';', '<', '>', '\x27', '\x22', '&', '\x7b',
    '\x7d'].contains c

/-- A number of 64 bits that starts with a minus sign. -/
def isNegativeNumber (token : Text) : Bool :=
  match token with
  | '-' :: digits =>
    !digits.isEmpty && digits.all Char.isDigit &&
      digits.foldl (fun n c => 10 * n + (c.toNat - 48)) 0 ≤ 0x8000000000000000
  | _ => false

/-- A dot between two letters, as where a member is accessed. -/
def hasMemberAccess : Text → Bool
  | a :: b :: c :: t => (isLetter a && b == '.' && isLetter c) || hasMemberAccess (b :: c :: t)
  | _ => false

def isValid (token : Text) : Bool :=
  match token with
  | [] => false
  | first :: _ =>
    !(first == '@' || first == '_' || first.isDigit) && !token.any isForbidden &&
      !isNegativeNumber token && !reserved.contains (Text.lowerAscii token) &&
      token.any Char.isAlphanum && !hasMemberAccess token

/-- The token is very likely a class name, wherever it stands. -/
def isTrusted (token : Text) : Bool :=
  isValid token && (token.contains '-' || utilities.contains token)

/-- The literal consists of nothing but plain class names and spaces. -/
def isClassList (literal : Text) : Bool :=
  !literal.isEmpty && literal.all fun c => c.isAlphanum || c == '-' || c == '_' || c == ' '

end TemplateMarkup.ClassName
