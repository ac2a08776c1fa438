import TemplateMarkup.Query.Reader

/-!
The errors that operations on templates report to their callers.
-/
namespace TemplateMarkup

inductive Error
  | fileNotFound (path : Text)
  | elementNotFound (query : Text)
  | invalidArgument (message : Text)
  | invalidQuery (query : Text) (fault : Query.Fault)
  | alreadyExists (path : Text)
  | io (path cause : Text)
deriving DecidableEq, Repr

namespace Error

def message : Error → Text
  | fileNotFound path => "File not found: ".toList ++ path
  | elementNotFound query => "Element not found at XPath: ".toList ++ query
  | invalidArgument m => "Invalid argument: ".toList ++ m
  | invalidQuery query fault =>
    "Invalid path query '".toList ++ query ++ "': ".toList ++ fault.message
  | alreadyExists path => "Refusing to overwrite existing file: ".toList ++ path
  | io path cause => "IO error on ".toList ++ path ++ ": ".toList ++ cause

def isNotFound : Error → Bool
  | fileNotFound _ | elementNotFound _ => true
  | _ => false

/-- The caller gave something unusable. -/
def isInvalidArgument : Error → Bool
  | invalidArgument _ | invalidQuery _ _ => true
  | _ => false

end Error

def readQuery (text : Text) : Except Error Query :=
  match Query.read text with
  | .ok q => .ok q
  | .error fault => .error (.invalidQuery text.trim fault)

namespace Document

def selectText (d : Document) (query : Text) : Except Error (List Nat) :=
  (readQuery query).map d.select

end Document

end TemplateMarkup
