import TemplateMarkup.Document.Basic

/-!
Uses of components: tags that are no standard elements, and elements with attributes for tag helpers.
-/
namespace TemplateMarkup

structure ComponentUse where
  tag : Text
  attributes : List Text
  line : Nat
deriving DecidableEq, Repr

namespace Component

def standardTags : List Text :=
  ["a", "abbr", "address", "area", "article", "aside", "audio", "b", "base", "bdi", "bdo",
    "blockquote", "body", "br", "button", "canvas", "caption", "cite", "code", "col", "colgroup",
    "data", "datalist", "dd", "del", "details", "dfn", "dialog", "div", "dl", "dt", "em", "embed",
    "fieldset", "figcaption", "figure", "footer", "form", "h1", "h2", "h3", "h4", "h5", "h6", "head",
    "header", "hgroup", "hr", "html", "i", "iframe", "img", "input", "ins", "kbd", "label", "legend",
    "li", "link", "main", "map", "mark", "meta", "meter", "nav", "noscript", "object", "ol",
    "optgroup", "option", "output", "p", "param", "picture", "pre", "progress", "q", "rp", "rt",
    "ruby", "s", "samp", "script", "section", "select", "small", "source", "span", "strong", "style",
    "sub", "summary", "sup", "svg", "table", "tbody", "td", "template", "textarea", "tfoot", "th",
    "thead", "time", "title", "tr", "track", "u", "ul", "var", "video", "wbr"].map String.toList

def isPotential (tag : Text) : Bool :=
  tag.contains '.' || !standardTags.contains (Text.lowerAscii tag)

def isHelperAttribute (name : Text) : Bool := Text.startsWith name "asp-" || name.contains '.'

def counts (r : Record) : Bool :=
  isPotential r.tag || r.attributes.any fun a => isHelperAttribute a.name

def usesIn (t : Text) : List ComponentUse :=
  ((Document.read t).records.filter counts).map fun r =>
    { tag := r.tag, attributes := r.attributes.map (·.name), line := r.line }

end Component

end TemplateMarkup
