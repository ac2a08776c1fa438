import TemplateMarkup.Document.Basic
import TemplateMarkup.Edit.Splice

/-!
Changes of attributes in a tag.
-/
namespace TemplateMarkup.Edit

def escapeValue (value : Text) (quote : Char) : Text :=
  if quote = '\x27' then Text.replaceChar '\x27' "&#39;" value
  else Text.replaceChar '\x22' "&quot;" value

def assignment (name value : Text) : Text :=
  name ++ "=\"".toList ++ escapeValue value '\x22' ++ ['\x22']

/-- The splice that gives a new value to an attribute. It keeps its name and its quotes, and gets
quotes if it had none. -/
def assign (a : Attribute) (value : Text) : Splice :=
  match a.valueSpan, a.quote with
  | some span, some quote => ⟨span, escapeValue value quote⟩
  | _, _ => ⟨a.span, assignment a.name value⟩

/-- The splices that set attributes of an element: those it has get new values, the others are put
after its last attribute. -/
def setAttributes (r : Record) (changes : List (Text × Text)) : List Splice :=
  let changed := changes.filterMap fun (name, value) =>
    (r.attribute? name).map fun a => assign a value
  let added := changes.flatMap fun (name, value) =>
    if (r.attribute? name).isNone then ' ' :: assignment name value else []
  if added.isEmpty then changed else changed ++ [Splice.insertion r.insertPoint added]

end TemplateMarkup.Edit
