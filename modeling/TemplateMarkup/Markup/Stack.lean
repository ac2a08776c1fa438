import TemplateMarkup.Markup.Tree

/-!
Several readings of a text share one stack. Its vertices are numbered, and each links to the vertices
below it, with the tree that was read in between; a link without a tree marks a fault. A version is
one reading: the vertex on its top and what it remembers.
-/
namespace TemplateMarkup.Markup

structure Link where
  below : Nat
  tree : Option Tree

structure Vertex where
  state : State
  place : Cursor
  links : List Link
  cost : Nat
  progress : Nat

/-- A state below a fault, for going on from there. -/
structure Resort where
  state : State
  place : Cursor
  depth : Nat

inductive Status
  | active
  /-- Waits at a tree that its state has no use for. -/
  | paused (lookahead : Tree)
  | halted

structure Version where
  top : Nat
  /-- The progress at the last fault. -/
  faultProgress : Nat
  tags : Option (List Tag)
  status : Status
  resorts : Option (List Resort)

namespace Version

def isActive (v : Version) : Bool := match v.status with
  | .active => true
  | _ => false

def isPaused (v : Version) : Bool := match v.status with
  | .paused _ => true
  | _ => false

def isHalted (v : Version) : Bool := match v.status with
  | .halted => true
  | _ => false

end Version

structure Stack where
  vertices : Array Vertex
  versions : List Version

namespace Stack

/-- Bounds on the effort: links of a vertex, paths followed at once, depth of resorts. -/
def maxLinks : Nat := 8

def maxPaths : Nat := 64

def maxDepth : Nat := 16

def start (t : Text) : Stack :=
  ⟨#[⟨.start, Cursor.start t, [], 0, 0⟩], [⟨0, 0, none, .active, none⟩]⟩

def vertex (s : Stack) (i : Nat) : Vertex :=
  s.vertices.getD i ⟨.start, Cursor.start [], [], 0, 0⟩

def version (s : Stack) (v : Nat) : Version := s.versions.getD v ⟨0, 0, none, .halted, none⟩

def top (s : Stack) (v : Nat) : Vertex := s.vertex (s.version v).top

def state (s : Stack) (v : Nat) : State := (s.top v).state

def place (s : Stack) (v : Nat) : Cursor := (s.top v).place

def isActive (s : Stack) (v : Nat) : Bool := (s.version v).isActive

def setVersion (s : Stack) (v : Nat) (f : Version → Version) : Stack :=
  { s with versions := s.versions.modify v f }

def setVertex (s : Stack) (i : Nat) (f : Vertex → Vertex) : Stack :=
  { s with vertices := s.vertices.modify i f }

def remove (s : Stack) (v : Nat) : Stack := { s with versions := s.versions.eraseIdx v }

def add (s : Stack) (v : Version) : Stack := { s with versions := s.versions ++ [v] }

def halt (s : Stack) (v : Nat) : Stack := s.setVersion v fun h => { h with status := .halted }

/-- Puts a tree on a version; without a tree, marks a fault. -/
def push (s : Stack) (v : Nat) (tree : Option Tree) (state : State) : Stack :=
  let h := s.version v
  let below := s.vertex h.top
  let next : Vertex := match tree with
    | some t =>
      ⟨state, t.info.stop, [⟨h.top, tree⟩], below.cost + t.cost, below.progress + t.progress⟩
    | none => ⟨state, below.place, [⟨h.top, none⟩], below.cost, below.progress⟩
  let s := { s with vertices := s.vertices.push next }
  s.setVersion v fun h =>
    { h with
      top := s.vertices.size - 1
      faultProgress := if tree.isNone then next.progress else h.faultProgress }

/-- Puts trees on a version one after the other, all with the same state after them. -/
def pushAll (s : Stack) (v : Nat) (trees : List Tree) (state : State) : Stack :=
  trees.foldl (fun s t => s.push v (some t) state) s

/-- The version `v` gives its place to the later version `w`. -/
def replace (s : Stack) (v w : Nat) : Stack :=
  if v = w then s
  else
    let old := s.version v
    let new := s.version w
    let kept := { new with resorts := new.resorts <|> old.resorts }
    (s.setVersion v fun _ => kept).remove w

def fork (s : Stack) (v : Nat) (top : Nat) : Stack :=
  let h := s.version v
  s.add { top, faultProgress := h.faultProgress, tags := h.tags, status := .active, resorts := none }

/-- Whether two trees on links need not both be kept. -/
def sameTree : Option Tree → Option Tree → Bool
  | none, none => true
  | some a, some b => a.interchangeable b
  | _, _ => false

/-- Adds a link to a vertex. If a link to an alike vertex with an alike tree exists, the two vertices
below are joined instead. -/
def addLink : (fuel : Nat) → Stack → Nat → Link → Stack
  | 0, s, _, _ => s
  | fuel + 1, s, i, link =>
    if link.below = i then s
    else
      let v := s.vertex i
      let alike (l : Link) : Bool :=
        sameTree l.tree link.tree &&
          (l.below == link.below ||
            let a := s.vertex l.below
            let b := s.vertex link.below
            a.state == b.state && a.place.offset == b.place.offset && a.cost == b.cost)
      match v.links.find? alike with
      | some l =>
        if l.below = link.below then s
        else (s.vertex link.below).links.foldl (fun s k => addLink fuel s l.below k) s
      | none =>
        if v.links.length = maxLinks then s
        else
          let progress := (s.vertex link.below).progress + (link.tree.map Tree.progress).getD 0
          s.setVertex i fun v =>
            { v with links := v.links ++ [link], progress := max v.progress progress }

def canMerge (s : Stack) (v w : Nat) : Bool :=
  let a := s.top v
  let b := s.top w
  s.isActive v && s.isActive w && a.state == b.state && a.place.offset == b.place.offset &&
    a.cost == b.cost && (s.version v).tags == (s.version w).tags

/-- Joins the version `w` into `v`, if both have come to the same point at the same cost. -/
def merge? (s : Stack) (v w : Nat) : Option Stack :=
  if s.canMerge v w then
    let top := (s.version v).top
    let s := (s.top w).links.foldl (fun s l => addLink s.vertices.size s top l) s
    let s := if s.state v = .recovery then
        s.setVersion v fun h => { h with faultProgress := (s.vertex top).progress }
      else s
    some (s.remove w)
  else none

/-- A path down the stack: the vertex it has come to, the trees on its way, the lowest first, and
how many of them count as parts of a rule. -/
structure Path where
  vertex : Nat
  trees : List Tree
  parts : Nat

def Path.follow (p : Path) (l : Link) : Path :=
  match l.tree with
  | some t => ⟨l.below, t :: p.trees, if t.isExtra then p.parts else p.parts + 1⟩
  | none => ⟨l.below, p.trees, p.parts + 1⟩

/-- What to do with a path: take it as a result, or end it, or both. -/
structure Verdict where
  take : Bool
  stop : Bool

/-- One step of all paths, from left to right. A path that forks goes on along its first link; its
other branches queue up behind all paths. `σ` is what the visitor has seen. -/
def stepPaths {σ : Type} (s : Stack) (visit : σ → Path → σ × Verdict) :
    (todo done queued taken : List Path) → σ → σ × List Path × List Path
  | [], done, queued, taken, seen => (seen, done.reverse ++ queued.reverse, taken)
  | p :: todo, done, queued, taken, seen =>
    let (seen, verdict) := visit seen p
    let taken := if verdict.take then p :: taken else taken
    match (s.vertex p.vertex).links with
    | [] => stepPaths s visit todo done queued taken seen
    | first :: others =>
      if verdict.stop then stepPaths s visit todo done queued taken seen
      else
        let room := maxPaths - (done.length + 1 + todo.length + queued.length)
        let branches := (others.take room).map p.follow
        stepPaths s visit todo (p.follow first :: done) (branches.reverse ++ queued) taken seen

/-- Follows all paths until none is left; gives what the visitor has seen and the paths it took. -/
def walk {σ : Type} (s : Stack) (visit : σ → Path → σ × Verdict) :
    (fuel : Nat) → (paths taken : List Path) → σ → σ × List Path
  | 0, _, taken, seen => (seen, taken.reverse)
  | fuel + 1, paths, taken, seen =>
    if paths.isEmpty then (seen, taken.reverse)
    else
      let (seen, paths, taken) := s.stepPaths visit paths [] [] taken seen
      walk s visit fuel paths taken seen

def paths (s : Stack) (v : Nat) (accept : Path → Verdict) : List Path :=
  let visit (_ : Unit) (p : Path) := ((), accept p)
  (s.walk visit (s.vertices.size + 2) [⟨(s.version v).top, [], 0⟩] [] ()).2

/-- The paths grouped by the vertex that they end in, in the order of first arrival. -/
def groupPaths (ps : List Path) : List (Nat × List (List Tree)) :=
  ps.foldl (fun groups p =>
    if groups.any (·.1 == p.vertex) then
      groups.map fun g => if g.1 == p.vertex then (g.1, g.2 ++ [p.trees]) else g
    else groups ++ [(p.vertex, [p.trees])]) []

/-- All ways to take `count` parts off a version. -/
def pop (s : Stack) (v count : Nat) : List (Nat × List (List Tree)) :=
  groupPaths (s.paths v fun p => ⟨p.parts == count, p.parts == count⟩)

/-- All ways to take everything off a version. -/
def popAll (s : Stack) (v : Nat) : List (List Tree) :=
  (s.paths v fun p => ⟨(s.vertex p.vertex).links.isEmpty, false⟩).map (·.trees)

/-- Takes the first path that leaves the top by a fault, and ends every path that leaves it. -/
def seekFault (found : Bool) (p : Path) : Bool × Verdict :=
  match p.trees with
  | [] => (found, ⟨false, false⟩)
  | t :: _ => if !found && t.isFault then (true, ⟨true, true⟩) else (found, ⟨false, true⟩)

def popFault? (s : Stack) (v : Nat) : Option (Stack × Tree) :=
  let faulty (l : Link) : Bool := (l.tree.map Tree.isFault).getD false
  if (s.top v).links.any faulty then
    match (s.walk seekFault (s.vertices.size + 2) [⟨(s.version v).top, [], 0⟩] [] false).2 with
    | ⟨i, t :: _, _⟩ :: _ => some (s.setVersion v fun h => { h with top := i }, t)
    | _ => none
  else none

/-- Notes the state that a path has come to, unless it is noted for this depth. -/
def noteResort (s : Stack) (seen : List Resort) (p : Path) : List Resort × Verdict :=
  let x := s.vertex p.vertex
  if maxDepth < p.parts then (seen, ⟨false, true⟩)
  else if (seen.takeWhile fun r => p.parts ≤ r.depth).any fun r =>
      r.depth == p.parts && r.state == x.state then (seen, ⟨false, false⟩)
  else (⟨x.state, x.place, p.parts⟩ :: seen, ⟨false, false⟩)

/-- The states below a version, the nearest first, each once for a depth. -/
def resorts (s : Stack) (v : Nat) : List Resort :=
  (s.walk s.noteResort (s.vertices.size + 2) [⟨(s.version v).top, [], 0⟩] [] []).1.reverse

/-- The cost of a version so far, with the price of a recovery that has just begun. -/
def cost (s : Stack) (v : Nat) : Nat :=
  let x := s.top v
  let fresh := x.state == .recovery && (x.links.head?.map (·.tree.isNone)).getD true
  if (s.version v).isPaused || fresh then x.cost + prices.recovery else x.cost

/-- The progress of a version since its last fault; progress that was undone lowers the mark. -/
def progress (s : Stack) (v : Nat) : Nat × Stack :=
  let now := (s.top v).progress
  let mark := min (s.version v).faultProgress now
  (now - mark, s.setVersion v fun h => { h with faultProgress := mark })

/-- Whether a version has come forward in the text since its last fault. -/
def movedFrom (s : Stack) (mark : Nat) : (fuel : Nat) → Nat → Bool
  | 0, _ => false
  | fuel + 1, i =>
    let x := s.vertex i
    match x.links with
    | ⟨below, some t⟩ :: _ =>
      if t.info.origin.offset < t.info.stop.offset then true
      else if mark < x.progress && t.cost == 0 then movedFrom s mark fuel below
      else false
    | _ => false

def hasMoved (s : Stack) (v : Nat) : Bool :=
  (s.top v).cost == 0 ||
    movedFrom s (s.version v).faultProgress (s.vertices.size + 1) (s.version v).top

end Stack

end TemplateMarkup.Markup
