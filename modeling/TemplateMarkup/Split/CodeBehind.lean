import TemplateMarkup.Text.Basic

/-!
The class file that takes up the code of a template.
-/
namespace TemplateMarkup.CodeBehind

def indentOf (line : Text) : Nat := Text.bytes (line.takeWhile isBlank)

def commonIndent (lines : List Text) : Nat :=
  (((lines.filter fun l => !Text.isBlankText l).map indentOf).min?).getD 0

/-- A line without an indent of some bytes; where it cannot lose just those, it loses all its leading
blanks. -/
def unindent (indent : Nat) (line : Text) : Text :=
  (Text.dropBytes indent line).getD (Text.trimStart line)

/-- Code whose first line has no indent, with the common indent of the others taken off. -/
def dedent (code : Text) : Text :=
  match Text.lines code with
  | [] => []
  | first :: rest => Text.joinWith ['\n'] (first :: rest.map (unindent (commonIndent rest)))

def indentation : Text := "        "

def bodyLine (line : Text) : Text :=
  (if Text.isBlankText line then [] else indentation ++ line) ++ ['\n']

def body (code : Text) : Text := (Text.lines (dedent code)).flatMap bodyLine

/-- What stands before the members of the class. -/
def opening (scope name : Text) : Text :=
  "using System;\nusing System.Collections.Generic;\nusing System.Linq;\n".toList ++
    "using Microsoft.AspNetCore.Components;\n\nnamespace ".toList ++ scope ++
    "\n\x7b\n    public partial class ".toList ++ name ++ "\n    \x7b\n".toList

/-- The file with the class of the given name, whose members are the code. -/
def render (scope name code : Text) : Text :=
  opening scope name ++ body code ++ "    \x7d\n\x7d\n".toList

end TemplateMarkup.CodeBehind
