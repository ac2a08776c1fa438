import TemplateMarkup.Pattern.CharSet
import TemplateMarkup.Text.Basic
import TemplateMarkup.Text.Script

/-!
Sets of characters by the names of their properties: general categories, scripts and a few others.
Case, blanks, hyphens, underscores and a leading `is` do not count in names.
-/
namespace TemplateMarkup.CharSet

def plainName (name : Text) : Text :=
  let bare := (Text.lowerAscii name).filter fun c => !(c == ' ' || c == '_' || c == '-')
  match Text.stripLead? "is".toList bare with
  | some rest => if bare == "isc".toList then bare else rest
  | Option.none => bare

def hasName (names : List String) (name : Text) : Bool :=
  names.any fun n => plainName n.toList == plainName name

def categoryNames : List (List String × List Category) :=
  [(["C", "Other"], [.cc, .cf, .cs, .co, .cn]), (["Cc", "Control", "cntrl"], [.cc]),
    (["Cf", "Format"], [.cf]), (["Cn", "Unassigned"], [.cn]), (["Co", "Private_Use"], [.co]),
    (["Cs", "Surrogate"], [.cs]), (["L", "Letter"], [.lu, .ll, .lt, .lm, .lo]),
    (["LC", "Cased_Letter"], [.lu, .ll, .lt]), (["Ll", "Lowercase_Letter"], [.ll]),
    (["Lm", "Modifier_Letter"], [.lm]), (["Lo", "Other_Letter"], [.lo]),
    (["Lt", "Titlecase_Letter"], [.lt]), (["Lu", "Uppercase_Letter"], [.lu]),
    (["M", "Mark", "Combining_Mark"], [.mn, .mc, .me]), (["Mc", "Spacing_Mark"], [.mc]),
    (["Me", "Enclosing_Mark"], [.me]), (["Mn", "Nonspacing_Mark"], [.mn]),
    (["N", "Number"], [.nd, .nl, .no]), (["Nd", "Decimal_Number", "digit"], [.nd]),
    (["Nl", "Letter_Number"], [.nl]), (["No", "Other_Number"], [.no]),
    (["P", "Punctuation", "punct"], [.pc, .pd, .ps, .pe, .pi, .pf, .po]),
    (["Pc", "Connector_Punctuation"], [.pc]), (["Pd", "Dash_Punctuation"], [.pd]),
    (["Pe", "Close_Punctuation"], [.pe]), (["Pf", "Final_Punctuation"], [.pf]),
    (["Pi", "Initial_Punctuation"], [.pi]), (["Po", "Other_Punctuation"], [.po]),
    (["Ps", "Open_Punctuation"], [.ps]), (["S", "Symbol"], [.sm, .sc, .sk, .so]),
    (["Sc", "Currency_Symbol"], [.sc]), (["Sk", "Modifier_Symbol"], [.sk]),
    (["Sm", "Math_Symbol"], [.sm]), (["So", "Other_Symbol"], [.so]),
    (["Z", "Separator"], [.zs, .zl, .zp]), (["Zl", "Line_Separator"], [.zl]),
    (["Zp", "Paragraph_Separator"], [.zp]), (["Zs", "Space_Separator"], [.zs])]

def ofCategory? (name : Text) : Option CharSet :=
  if hasName ["Any"] name then some any
  else if hasName ["ASCII"] name then some (ranges [(0, 0x7F)])
  else if hasName ["Assigned"] name then some (complement (categories [.cn]))
  else (categoryNames.find? fun c => hasName c.1 name).map fun c => categories c.2

def ofScript? (name : Text) : Option CharSet :=
  (Script.all.find? fun s => hasName s.names name).map fun s => ranges s.ranges

def ofFlag? (name : Text) : Option CharSet :=
  if hasName ["Alphabetic", "Alpha"] name then some letter
  else if hasName ["White_Space", "WSpace", "space"] name then some blank
  else if hasName ["ASCII_Hex_Digit", "AHex"] name then
    some (ranges [(0x30, 0x39), (0x41, 0x46), (0x61, 0x66)])
  else if hasName ["Hex_Digit", "Hex"] name then
    some (ranges [(0x30, 0x39), (0x41, 0x46), (0x61, 0x66), (0xFF10, 0xFF19), (0xFF21, 0xFF26),
      (0xFF41, 0xFF46)])
  else if hasName ["Join_Control", "Join_C"] name then some (ranges [(0x200C, 0x200D)])
  else Option.none

def ofName? (name : Text) : Option CharSet :=
  ofFlag? name <|> ofCategory? name <|> ofScript? name

def ofPair? (property value : Text) : Option CharSet :=
  if hasName ["General_Category", "gc"] property then ofCategory? value
  else if hasName ["Script", "sc"] property then ofScript? value
  else Option.none

end TemplateMarkup.CharSet
