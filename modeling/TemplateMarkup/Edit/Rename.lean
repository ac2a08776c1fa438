import TemplateMarkup.ClassName.Basic
import TemplateMarkup.Edit.Attributes
import TemplateMarkup.Error

/-!
Renaming a class in the class attributes of a template. Only whole words are renamed; the blanks
between words stay.
-/
namespace TemplateMarkup.Edit

def renameWord (old new word : Text) : Text × Nat := if word = old then (new, 1) else (word, 0)

/-- A value with its words renamed and their number; `run` is the word read so far, in reverse. -/
def renameWordsFrom (old new run : Text) : Text → Text × Nat
  | [] => if run.isEmpty then ([], 0) else renameWord old new run.reverse
  | c :: t =>
    if isBlank c then
      let (word, n) := if run.isEmpty then ([], 0) else renameWord old new run.reverse
      let (rest, k) := renameWordsFrom old new [] t
      (word ++ c :: rest, n + k)
    else renameWordsFrom old new (c :: run) t

/-- A value with every word `old` replaced, and the number of replacements. -/
def renameWords (value old new : Text) : Text × Nat := renameWordsFrom old new [] value

def renameIn? (old new : Text) (a : Attribute) : Option (Splice × Nat) :=
  match a.value, a.valueSpan with
  | some value, some span =>
    if ClassName.isAttribute a.name then
      let (renamed, n) := renameWords value old (escapeValue new (a.quote.getD '\x22'))
      if n = 0 then none else some (⟨span, renamed⟩, n)
    else none
  | _, _ => none

/-- The text with a class renamed, and the number of words renamed; nothing where a splice is
refused. -/
def renameClass? (t old new : Text) : Option (Text × Nat) :=
  let renames := ((Document.read t).records.flatMap (·.attributes)).filterMap (renameIn? old new)
  let total := renames.foldr (fun r n => r.2 + n) 0
  if total = 0 then some (t, 0)
  else (Splice.applyAll? t (renames.map (·.1))).map fun renamed => (renamed, total)

def checkClassName (role name : Text) : Except Error Unit :=
  if name.isEmpty || name.any fun c => isBlank c || c == '\x22' || c == '\x27' then
    .error (.invalidArgument (role ++ " class name must be a single non-empty token, got '".toList ++
      name ++ "'".toList))
  else .ok ()

end TemplateMarkup.Edit
