import TemplateMarkup.ClassName.Basic
import TemplateMarkup.Document.Basic
import TemplateMarkup.Literal
import TemplateMarkup.Region

/-!
The class names that a template uses: the words of its class attributes, those of string literals in
such attributes, and the trusted words of string literals in its code.
-/
namespace TemplateMarkup

inductive Provenance
  | staticAttribute
  | dynamicLiteral
deriving DecidableEq, Repr

inductive Confidence
  | low
  | medium
  | high
deriving DecidableEq, Repr

def Confidence.rank : Confidence → Nat
  | low => 0
  | medium => 1
  | high => 2

structure ClassUse where
  name : Text
  provenance : Provenance
  confidence : Confidence
deriving DecidableEq, Repr

namespace ClassUse

/-- Puts a use among uses that are ordered by name; of two uses of a name the earlier one stays unless
the later one is surer. -/
def insert (use : ClassUse) : List ClassUse → List ClassUse
  | [] => [use]
  | u :: us =>
    if u.name = use.name then
      (if use.confidence.rank ≤ u.confidence.rank then u else use) :: us
    else if Text.lt use.name u.name then use :: u :: us
    else u :: insert use us

def tokens (keep : Text → Bool) (t : Text) : List Text := (Text.words t).filter keep

/-- The class names in the string literals of code; nothing where the code is cut off. -/
def ofLiterals? (keep : Text → Bool) (code : Text) : Option (List Text) :=
  (Literal.all? code).map fun literals =>
    (literals.filter ClassName.isClassList).flatMap (tokens keep)

def ofValue? (value : Text) : Option (List ClassUse) :=
  let plain := (tokens ClassName.isValid value).map fun n => ⟨n, .staticAttribute, .high⟩
  if value.contains '@' then
    (ofLiterals? ClassName.isValid value).map fun names =>
      plain ++ names.map fun n => ⟨n, .dynamicLiteral, .medium⟩
  else some plain

def ofAttribute? (a : Attribute) : Option (List ClassUse) :=
  match a.value with
  | some value => if ClassName.isAttribute a.name then ofValue? value else some []
  | none => some []

def ofCode? (code : Text) : Option (List ClassUse) :=
  (ofLiterals? ClassName.isTrusted code).map fun names => names.map fun n =>
    ⟨n, .dynamicLiteral, if n.contains '-' then .medium else .low⟩

/-- All uses in a template, in the order of attributes and then of code. -/
def occurrences? (t : Text) : Option (List ClassUse) := do
  let attributes ← ((Document.read t).records.flatMap (·.attributes)).mapM ofAttribute?
  let code ← (Region.codeIn t).mapM fun r => ofCode? r.content
  return attributes.flatten ++ code.flatten

end ClassUse

/-- The class names a template uses, ascending, each with the best evidence for it; nothing if one of
the pieces of code looked into is cut off. -/
def classUses? (t : Text) : Option (List ClassUse) :=
  (ClassUse.occurrences? t).map fun uses => uses.foldl (fun found u => u.insert found) []

def usedClasses? (t : Text) : Option (List Text) := (classUses? t).map fun uses => uses.map (·.name)

end TemplateMarkup
