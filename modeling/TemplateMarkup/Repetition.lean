import TemplateMarkup.Document.Basic

/-!
Repeated markup: elements whose markup is the same up to blanks and occurs at least twice.
-/
namespace TemplateMarkup

structure Repetition where
  preview : Text
  /-- The lines on which the elements start. -/
  lines : List Nat
deriving DecidableEq, Repr

namespace Repetition

def count (r : Repetition) : Nat := r.lines.length

/-- An element counts if there are more characters than this between its tags. -/
def minInner : Nat := 20

/-- The number of characters of the markup that a preview shows. -/
def previewSize : Nat := 100

/-- Each run of blanks becomes one space. -/
def collapse : Text → Text
  | [] => []
  | c :: t =>
    if isBlank c then
      match t with
      | d :: _ => if isBlank d then collapse t else ' ' :: collapse t
      | [] => [' ']
    else c :: collapse t

def normalize (markup : Text) : Text := Text.trim (collapse markup)

def isEligible (t : Text) (r : Record) : Bool :=
  match r.inner with
  | some inner => minInner < (inner.slice t).length
  | none => false

/-- Puts a line to the group of a key, which is new if there is none yet. -/
def addTo (key : Text) (line : Nat) : List (Text × List Nat) → List (Text × List Nat)
  | [] => [(key, [line])]
  | (k, lines) :: rest =>
    if k = key then (k, lines ++ [line]) :: rest else (k, lines) :: addTo key line rest

/-- The lines of eligible elements, grouped by their markup, in the order of first occurrence. -/
def groups (t : Text) : List (Text × List Nat) :=
  ((Document.read t).records.filter (isEligible t)).foldl
    (fun found r => addTo (normalize (r.outer.slice t)) r.line found) []

def ofGroup? (group : Text × List Nat) : Option Repetition :=
  if group.2.length < 2 then none
  else some { preview := group.1.take previewSize ++ "...".toList, lines := group.2 }

/-- The repetitions in a template, longer previews first. -/
def allIn (t : Text) : List Repetition :=
  ((groups t).filterMap ofGroup?).mergeSort fun a b => decide (b.preview.length ≤ a.preview.length)

end Repetition

end TemplateMarkup
