import TemplateMarkup.Error
import TemplateMarkup.Glob.Reader

/-!
Which paths count: those that a glob includes and none excludes.
-/
namespace TemplateMarkup

structure PathMatcher where
  /-- Nothing stands for all paths. -/
  included : Option (List Glob) := none
  excluded : List Glob := []

namespace PathMatcher

def readGlobs (role : Text) (globs : List Text) : Except Error (List Glob) :=
  globs.mapM fun g =>
    match Glob.read g with
    | .ok glob => .ok glob
    | .error fault =>
      .error (.invalidArgument ("Invalid ".toList ++ role ++ " pattern '".toList ++ g ++
        "': error parsing glob '".toList ++ g ++ "': ".toList ++ fault.message))

def ofLists (included excluded : List Text) : Except Error PathMatcher := do
  let globs ← readGlobs "include" included
  return {
    included := if included.isEmpty then none else some globs
    excluded := ← readGlobs "exclude" excluded }

def entersDir (m : PathMatcher) (path : Text) : Bool := !m.excluded.any fun g => g.isMatch path

def takesFile (m : PathMatcher) (path : Text) : Bool :=
  m.entersDir path && m.included.all fun globs => globs.any fun g => g.isMatch path

end PathMatcher

end TemplateMarkup
