import TemplateMarkup.ClassName.Usage
import TemplateMarkup.Pattern.Reader
import TemplateMarkup.Stylesheet

/-!
Orphans: classes that a template uses and its stylesheet does not define. Classes on a list of known
ones, and those that match a pattern to ignore, do not count.
-/
namespace TemplateMarkup

structure IgnorePattern where
  text : Text
  pattern : Pattern

namespace IgnorePattern

def read? (line : Text) : Option IgnorePattern := (Pattern.read? line).map fun p => ⟨line, p⟩

/-- The patterns of a text, one on each line. Comments, blank lines and lines that are no patterns are
passed over. -/
def readAll (content : Text) : List IgnorePattern :=
  (((Text.lines content).map Text.trim).filter fun line =>
    !line.isEmpty && line.head? != some '#').filterMap read?

end IgnorePattern

structure OrphanOptions where
  /-- The classes that count as defined elsewhere, ascending and each once. -/
  whitelist : List Text := []
  ignore : List IgnorePattern := []

namespace OrphanOptions

def ofLists (whitelist : List Text) (ignore : List IgnorePattern) : OrphanOptions :=
  ⟨Text.sortDistinct whitelist, ignore⟩

def excludes (o : OrphanOptions) (name : Text) : Bool :=
  o.whitelist.contains name || o.ignore.any fun p => p.pattern.occursIn name

end OrphanOptions

/-- The orphans of a template, ascending. Without a stylesheet nothing is defined. -/
def findOrphans? (template : Text) (stylesheet : Option Text) (options : OrphanOptions) :
    Option (List Text) :=
  (usedClasses? template).map fun used =>
    let defined := (stylesheet.map Stylesheet.definedClasses).getD []
    used.filter fun name => !defined.contains name && !options.excludes name

end TemplateMarkup
