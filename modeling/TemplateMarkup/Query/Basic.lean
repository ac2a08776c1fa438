import TemplateMarkup.Document.Basic
import TemplateMarkup.Text.Case

/-!
Path queries over documents. A query is a row of steps. Each step goes from the elements found so far,
its scopes, to their children that pass its test and its predicates; `//` adds the descendants of the
scopes to the scopes. Positions count among the children of one scope.
-/
namespace TemplateMarkup

inductive Axis
  | child
  | descendantOrSelf
deriving DecidableEq, Repr

inductive NodeTest
  | any
  | name (tag : Text)
deriving DecidableEq, Repr

inductive Condition
  | hasAttribute (name : Text)
  | attributeEquals (name value : Text)
  | attributeDiffers (name value : Text)
  | attributeContains (name part : Text)
  | attributeStartsWith (name lead : Text)
  | textEquals (value : Text)
  | textContains (part : Text)
deriving DecidableEq, Repr

inductive Predicate
  /-- A position, counted from 1. -/
  | position (n : Nat)
  | last
  | all (conditions : List Condition)
deriving DecidableEq, Repr

structure Step where
  axis : Axis
  test : NodeTest
  predicates : List Predicate
deriving DecidableEq, Repr

structure Query where
  text : Text
  steps : List Step
deriving DecidableEq, Repr

def NodeTest.passes (test : NodeTest) (tag : Text) (ignoreCase : Bool) : Bool :=
  match test with
  | any => true
  | name n => if ignoreCase then Text.equalsFold n tag else n == tag

def NodeTest.lower : NodeTest → NodeTest
  | any => any
  | name n => name n.lower

def Condition.holds (r : Record) : Condition → Bool
  | hasAttribute name => (r.attribute? name).isSome
  | attributeEquals name value => (r.attributeValue? name).any (· == value)
  | attributeDiffers name value => (r.attributeValue? name).any (· != value)
  | attributeContains name part => (r.attributeValue? name).any (Text.includes · part)
  | attributeStartsWith name lead => (r.attributeValue? name).any (Text.startsWith · lead)
  | textEquals value => r.innerText == value
  | textContains part => Text.includes r.innerText part

def Predicate.apply (d : Document) (candidates : List Nat) : Predicate → List Nat
  | position n => (candidates[n - 1]?).toList
  | last => candidates.getLast?.toList
  | all conditions => candidates.filter fun i => (d.record? i).any fun r =>
      conditions.all (Condition.holds r)

namespace Query

def withLowerNames (q : Query) : Query :=
  { q with steps := q.steps.map fun s => { s with test := s.test.lower } }

/-- The whole document comes before its elements, and those are ordered by index. -/
def scopeLe : Option Nat → Option Nat → Bool
  | none, _ => true
  | some _, none => false
  | some i, some j => i ≤ j

def withDescendants (d : Document) (scope : Option Nat) : List (Option Nat) :=
  let (first, stop) := d.descendants scope
  scope :: (List.range' first (stop - first)).map some

def scopes (d : Document) (axis : Axis) (contexts : List (Option Nat)) : List (Option Nat) :=
  let all := match axis with
    | .child => contexts
    | .descendantOrSelf => contexts.flatMap (withDescendants d)
  (all.mergeSort scopeLe).eraseReps

def matchesIn (d : Document) (ignoreCase : Bool) (step : Step) (scope : Option Nat) : List Nat :=
  let named := (d.childrenOf scope).filter fun i =>
    (d.record? i).any fun r => step.test.passes r.tag ignoreCase
  step.predicates.foldl (Predicate.apply d) named

/-- The elements that steps lead to, in order and each once. -/
def evaluateFrom (d : Document) (ignoreCase : Bool) (contexts : List (Option Nat)) :
    List Step → List (Option Nat)
  | [] => contexts
  | step :: steps =>
    let found := (scopes d step.axis contexts).flatMap (matchesIn d ignoreCase step)
    let found := (found.mergeSort fun i j => decide (i ≤ j)).eraseReps
    evaluateFrom d ignoreCase (found.map some) steps

/-- The indices of the elements that a query describes, ascending. -/
def evaluate (q : Query) (d : Document) (ignoreCase : Bool) : List Nat :=
  (evaluateFrom d ignoreCase [none] q.steps).filterMap id

end Query

/-- The elements that a query describes; if there are none, those that it describes with its tag names
in small letters and the case of tags ignored. -/
def Document.select (d : Document) (q : Query) : List Nat :=
  match q.evaluate d false with
  | [] => q.withLowerNames.evaluate d true
  | found => found

end TemplateMarkup
