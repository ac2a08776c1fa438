import TemplateMarkup.Markup.Token

/-!
Trees over a text while it is being read. Each tree knows what it costs: repairs have a price, and
among several readings of a text the cheaper one is kept.
-/
namespace TemplateMarkup.Markup

structure Prices where
  recovery : Nat
  missing : Nat
  skippedTree : Nat
  skippedByte : Nat
  skippedLine : Nat

def prices : Prices := ⟨500, 110, 100, 1, 30⟩

inductive Label
  | terminal (t : Terminal)
  | nonterminal (n : Nonterminal)
  /-- Content that fits no rule. -/
  | fault
  /-- A run of tokens passed over while looking for a place to go on. -/
  | skipped
deriving DecidableEq, Repr

namespace Label

def isShown : Label → Bool
  | terminal t => t.isShown
  | nonterminal n => n.isShown
  | fault => true
  | skipped => false

def terminal? : Label → Option Terminal
  | terminal t => some t
  | _ => none

def rank : Label → Nat
  | terminal t => t.rank
  | nonterminal n => n.rank
  | skipped => 65534
  | fault => 65535

end Label

structure TreeInfo where
  /-- Where the blanks before the tree begin. -/
  origin : Cursor
  start : Cursor
  stop : Cursor
  /-- An extra may stand anywhere and is no part of a rule. -/
  extra : Bool := false
  /-- A token that the text lacks. -/
  missing : Bool := false
  /-- The open tags after the token, if it is a token that depends on them. -/
  tags : Option (List Tag) := none
  changedTags : Bool := false
  cost : Nat := 0
  /-- The number of shown nodes right below. -/
  shownChildren : Nat := 0
  /-- The number of shown nodes at any depth below. -/
  shownWithin : Nat := 0

structure Tree where
  label : Label
  info : TreeInfo
  children : List Tree

namespace Tree

def cost (t : Tree) : Nat := t.info.cost

def isExtra (t : Tree) : Bool := t.info.extra

def isFault (t : Tree) : Bool := t.label == .fault

def markExtra (t : Tree) (extra : Bool) : Tree := { t with info := { t.info with extra } }

/-- The bytes of a tree without the blanks before it. -/
def size (t : Tree) : Nat := t.info.stop.offset - t.info.start.offset

def ofToken (origin : Cursor) (token : Token) : Tree :=
  let label : Label := match token.terminal with
    | some t => .terminal t
    | none => .fault
  { label, children := []
    info :=
      { origin, start := token.start, stop := token.stop, tags := token.tags
        changedTags := token.changed, extra := token.terminal == some .endOfText } }

/-- A token that the text lacks at a place. -/
def missing (t : Terminal) (c : Cursor) : Tree :=
  { label := .terminal t, children := []
    info :=
      { origin := c, start := c, stop := c, missing := true
        cost := prices.missing + prices.recovery } }

/-- How much a tree counts towards the progress of a reading. -/
def progress (t : Tree) : Nat :=
  t.info.shownWithin + (if t.label.isShown then 1 else 0) + (if t.label == .skipped then 1 else 0)

/-- What a child adds to the price of a fault: each shown tree in it was read in vain. -/
def faultPrice (child : Tree) : Nat :=
  if child.isExtra || (child.isFault && child.children.isEmpty) then 0
  else if child.label.isShown then prices.skippedTree
  else if child.children.isEmpty then 0
  else prices.skippedTree * child.info.shownChildren

/-- The tree with the given children; `place` is where it stands if it has none. -/
def build (label : Label) (place : Cursor) (children : List Tree) : Tree :=
  let faulty := label == .fault || label == .skipped
  let origin := (children.head?.map (·.info.origin)).getD place
  let start := (children.head?.map (·.info.start)).getD place
  let stop := (children.getLast?.map (·.info.stop)).getD place
  let sum (f : Tree → Nat) : Nat := children.foldr (fun c n => f c + n) 0
  let below := sum fun c => if c.label == .skipped then 0 else c.cost
  let own :=
    if faulty then
      sum faultPrice + prices.recovery +
        prices.skippedByte * (stop.offset - start.offset) +
        prices.skippedLine * (stop.line - start.line)
    else 0
  let shown (c : Tree) := if c.label.isShown then 1 else 0
  { label, children
    info :=
      { origin, start, stop, cost := below + own
        changedTags := children.any (·.info.changedTags)
        shownChildren := sum fun c => if c.label.isShown then 1 else c.info.shownChildren
        shownWithin := sum fun c => c.info.shownWithin + shown c } }

/-- The children up to the last one that is no extra, and the extras after it. -/
def splitTrailing (ts : List Tree) : List Tree × List Tree :=
  let extras := (ts.reverse.takeWhile isExtra).reverse
  (ts.take (ts.length - extras.length), extras)

/-- Trees that need not both be kept: the same symbol, and either both faulty or of one shape. -/
def interchangeable (s t : Tree) : Bool :=
  s.label == t.label &&
    ((s.cost > 0 && t.cost > 0) ||
      (s.info.start.offset - s.info.origin.offset == t.info.start.offset - t.info.origin.offset &&
        s.size == t.size && s.children.length == t.children.length && s.isExtra == t.isExtra &&
        s.info.tags == t.info.tags))

mutual

/-- The order of trees by symbol, then by the number of children, then child by child. -/
def compare : Tree → Tree → Ordering
  | ⟨l, _, cs⟩, ⟨m, _, ds⟩ =>
    ((Ord.compare l.rank m.rank).then (Ord.compare cs.length ds.length)).then (compareAll cs ds)

def compareAll : List Tree → List Tree → Ordering
  | [], _ | _, [] => .eq
  | c :: cs, d :: ds => (compare c d).then (compareAll cs ds)

end

/-- Whether `t` is kept rather than `s`, the tree found first. -/
def supersedes (t s : Tree) : Bool :=
  if t.cost < s.cost then true
  else if s.cost < t.cost then false
  else if s.cost > 0 then true
  else s.compare t == .gt

end Tree

end TemplateMarkup.Markup
