import TemplateMarkup.Text.Letter
import TemplateMarkup.Text.Basic

/-!
Namespaces: the one that a template names, and names that can be parts of one.
-/
namespace TemplateMarkup.Namespace

def isPart (c : Char) : Bool := isWordChar c || c == '.'

def directive? (t : Text) : Option Text :=
  (Text.stripLead? "@namespace".toList t).bind fun after =>
    match after.takeWhile isBlank, (after.dropWhile isBlank).takeWhile isPart with
    | _ :: _, c :: name => some (c :: name)
    | _, _ => none

def firstDirective? (t : Text) : Option Text :=
  match directive? t with
  | some name => some name
  | none =>
    match t with
    | [] => none
    | _ :: rest => firstDirective? rest

def trimDots (name : Text) : Text := (name.reverse.dropWhile (· == '.')).reverse

def explicit? (t : Text) : Option Text :=
  (firstDirective? t).bind fun name =>
    let name := trimDots name
    if name.isEmpty then none else some name

/-- The namespace of a template about which nothing is known. -/
def fallback : Text := "MyApp.Components"

/-- A name made into an identifier: other characters become underscores, and one is put before a
leading digit. -/
def sanitize (segment : Text) : Text :=
  let name := segment.map fun c => if isLetterOrNumber c || c == '_' then c else '_'
  match name with
  | [] => ['_']
  | c :: _ => if c.isDigit then '_' :: name else name

end TemplateMarkup.Namespace
