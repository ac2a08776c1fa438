import TemplateMarkup.Markup.Stack

/-!
Reading markup. The automaton shifts tokens and reduces rules on each version of the stack. A version
that has no use for a token waits; when no better version is left, it is repaired: by a token that
the text lacks, by going back to a state below that can use the token, or by passing over it.
Versions that cost clearly more than others are given up.
-/
namespace TemplateMarkup.Markup

structure Reader where
  stack : Stack
  /-- The best whole tree so far. -/
  finished : Option Tree := none
  /-- How many whole trees were found. -/
  accepted : Nat := 0

namespace Reader

/-- How many versions are kept, how many more reductions may add for a while, and the weighed cost by
which a version must be behind to be given up at once. -/
def maxVersions : Nat := 6

def maxOverflow : Nat := 4

def maxCostGap : Nat := 18 * prices.skippedTree

structure Standing where
  cost : Nat
  progress : Nat
  inFault : Bool

inductive Preference
  | takeLeft
  | preferLeft
  | neither
  | preferRight
  | takeRight
deriving DecidableEq

def Standing.compare (a b : Standing) : Preference :=
  if !a.inFault && b.inFault then if a.cost < b.cost then .takeLeft else .preferLeft
  else if a.inFault && !b.inFault then if b.cost < a.cost then .takeRight else .preferRight
  else if a.cost < b.cost then
    if maxCostGap < (b.cost - a.cost) * (1 + a.progress) then .takeLeft else .preferLeft
  else if b.cost < a.cost then
    if maxCostGap < (a.cost - b.cost) * (1 + b.progress) then .takeRight else .preferRight
  else .neither

/-- The standing of a version; taking the progress may lower the mark it is counted from. -/
def standing (s : Stack) (v : Nat) : Standing × Stack :=
  let waits := (s.version v).isPaused
  let cost := s.cost v + if waits then prices.skippedTree else 0
  let (progress, s) := s.progress v
  (⟨cost, progress, waits || s.state v == .recovery⟩, s)

/-- Whether one of the versions listed, as far in the text as `v` or farther, makes it pointless to
take `v` to the given cost. -/
def outdoneBy (v : Nat) (mine : Standing) : List Nat → Stack → Bool × Stack
  | [], s => (false, s)
  | i :: rest, s =>
    if i = v || !s.isActive i || (s.place i).offset < (s.place v).offset then
      outdoneBy v mine rest s
    else
      let (other, s) := standing s i
      match mine.compare other with
      | .takeRight => (true, s)
      | .preferRight => if s.canMerge i v then (true, s) else outdoneBy v mine rest s
      | _ => outdoneBy v mine rest s

/-- Whether a better reading exists than `v` would be at the given cost. -/
def isOutdone (r : Reader) (v cost : Nat) : Bool × Reader :=
  match r.finished with
  | some t => if t.cost ≤ cost then (true, r) else go
  | none => go
where
  go : Bool × Reader :=
    let (progress, s) := r.stack.progress v
    let (result, s) := outdoneBy v ⟨cost, progress, false⟩ (List.range s.versions.length) s
    (result, { r with stack := s })

/-- The children chosen for a tree among several ways to read them. -/
def chooseTree (label : Label) (place : Cursor) (first : List Tree) (others : List (List Tree)) :
    Tree × List Tree :=
  let make (ts : List Tree) : Tree × List Tree :=
    let (parts, extras) := Tree.splitTrailing ts
    (Tree.build label place parts, extras)
  others.foldl (fun best ts =>
    let candidate := make ts
    if candidate.1.supersedes best.1 then candidate else best) (make first)

/-- The first version below `limit`, other than `v`, that the version `w` joins. -/
def mergeInto (s : Stack) (v w limit : Nat) : Option Stack :=
  (List.range limit).findSome? fun j => if j = v then none else s.merge? j w

/-- Puts a rule over one vertex below a version, as a new version, unless an earlier one takes it in.
The group holds the vertex and the ways to read the parts of the rule above it. -/
def reduceGroup (v : Nat) (n : Nonterminal) (s : Stack) (group : Nat × List (List Tree)) : Stack :=
  let w := s.versions.length
  let halted := (s.versions.filter (·.isHalted)).length
  if maxVersions + maxOverflow + halted < w then s
  else
    match group.2 with
    | [] => s
    | first :: others =>
      let below := s.vertex group.1
      let (tree, extras) := chooseTree (.nonterminal n) below.place first others
      let next := (below.state.goto? n).getD .recovery
      let s := (s.fork v group.1).pushAll w (tree :: extras) next
      (mergeInto s v w w).getD s

/-- Reduces a rule on a version, in each way to take its parts off. -/
def reduce (s : Stack) (v : Nat) (n : Nonterminal) (count : Nat) : Stack :=
  (s.pop v count).foldl (reduceGroup v n) s

/-- The version that a reduction has added, if it added one. -/
def added? (before after : Stack) : Option Nat :=
  if before.versions.length < after.versions.length then some before.versions.length else none

/-- The reductions and shifts of a state over the given terminals: the reductions without repetition,
and whether a terminal can be shifted. -/
def reductions (s : State) (ts : List Terminal) : List (Nonterminal × Nat) × Bool :=
  let reds := (ts.filterMap fun t => s.reduce? t).filter fun r => 0 < r.2
  let shifts := s == .recovery || ts.any fun t =>
    t != .comment && (s.shift? t).isSome && (s.reduce? t).isNone
  (reds.eraseDups, shifts)

/-- Performs every reduction that some of the terminals call for, on a version and on all versions
that come out of it. With `only` those that can then shift a terminal are kept. -/
def reduceAll (first initial : Nat) (ts : List Terminal) (only : Bool) :
    (fuel round v : Nat) → Stack → (shiftable : Bool) → Stack × Bool
  | 0, _, _, s, shiftable => (s, shiftable)
  | fuel + 1, round, v, s, shiftable =>
    let count := s.versions.length
    if count ≤ v then (s, shiftable)
    else
      let joined := ((List.range v).drop initial).findSome? fun j => s.merge? j v
      match joined with
      | some s => reduceAll first initial ts only fuel (round + 1) v s shiftable
      | none =>
        let (reds, shifts) := reductions (s.state v) ts
        let (s, last) := reds.foldl (fun (s, _) red =>
          let after := reduce s v red.1 red.2
          (after, added? s after)) (s, none)
        let next := if v = first then count else v + 1
        if shifts then reduceAll first initial ts only fuel (round + 1) next s true
        else
          match last.filter fun _ => round < maxVersions with
          | some w => reduceAll first initial ts only fuel (round + 1) v (s.replace v w) shiftable
          | none =>
            reduceAll first initial ts only fuel (round + 1) next (if only then s.remove v else s)
              shiftable

/-- Bound on the rounds of `reduceAll`, which end when no version is left to look at. -/
def maxRounds : Nat := 200

def reduceEvery (s : Stack) (v : Nat) : Stack :=
  (reduceAll v s.versions.length Terminal.insertable false maxRounds 0 v s false).1

/-- The versions that come out of `v` by reductions before a terminal and can then use it. At the end
of the text every reduction counts. -/
def reduceBefore (s : Stack) (v : Nat) (t : Terminal) : Stack × Bool :=
  if t = .endOfText then
    reduceAll v s.versions.length Terminal.insertable false maxRounds 0 v s false
  else reduceAll v s.versions.length [t] true maxRounds 0 v s false

/-- Takes a tree as a whole: the last tree on the stack that is no extra becomes the root, and all
others join its children. -/
def wholeTree (ts : List Tree) : Option Tree :=
  let after := (ts.reverse.takeWhile Tree.isExtra).reverse
  match (ts.reverse.dropWhile Tree.isExtra) with
  | [] => none
  | root :: before =>
    let children := before.reverse ++ root.children ++ after
    some (Tree.build root.label root.info.start children)

/-- Counts a whole tree; it is kept if it is the best so far. -/
def finish (r : Reader) (trees : List Tree) : Reader :=
  match wholeTree trees with
  | none => r
  | some t =>
    let best := match r.finished with
      | none => t
      | some best => if t.supersedes best then t else best
    { r with finished := some best, accepted := r.accepted + 1 }

def accept (r : Reader) (v : Nat) (lookahead : Tree) : Reader :=
  let s := r.stack.push v (some lookahead) .start
  (s.popAll v).foldl finish { r with stack := s.halt v }

/-- Takes a fault off a version, if there is one; its children go before the given trees. -/
def takeFault (s : Stack) (v : Nat) (trees : List Tree) : Stack × List Tree :=
  match s.popFault? v with
  | some (s, fault) => (s, fault.children ++ trees)
  | none => (s, trees)

/-- The trees as one fault, with the extras at their end after it. -/
def asFault (place : Cursor) (trees : List Tree) : List Tree :=
  let (parts, extras) := Tree.splitTrailing trees
  if parts.isEmpty then extras
  else (Tree.build .fault place parts).markExtra true :: extras

/-- Goes back to one vertex below a version, as a new version, if its state is the one looked for;
what was read since becomes a fault. Tells whether a version was added. -/
def recoverGroup (v : Nat) (goal : State) (s : Stack × Bool) (group : Nat × List (List Tree)) :
    Stack × Bool :=
  let below := s.1.vertex group.1
  if below.state ≠ goal then s
  else
    let w := s.1.versions.length
    let (s, trees) := takeFault (s.1.fork v group.1) w (group.2.headD [])
    (s.pushAll w (asFault below.place trees) goal, true)

def recoverTo (s : Stack) (v depth : Nat) (goal : State) : Option Stack :=
  let (s, done) := (s.pop v depth).foldl (recoverGroup v goal) (s, false)
  if done then some s else none

/-- Looks through the states below a fault for one that can use the lookahead. -/
def tryResorts (v versions : Nat) (place : Cursor) (cost progress : Nat) (t : Terminal) :
    List Resort → Reader → Reader × Bool
  | [], r => (r, false)
  | e :: rest, r =>
    let taken := (List.range versions).any fun j =>
      r.stack.state j == e.state && (r.stack.place j).offset == place.offset
    if e.state = .recovery || e.place.offset = place.offset || taken then
      tryResorts v versions place cost progress t rest r
    else
      let price := cost + e.depth * prices.skippedTree +
        (place.offset - e.place.offset) * prices.skippedByte +
        (place.line - e.place.line) * prices.skippedLine
      let (outdone, r) := r.isOutdone v price
      if outdone then (r, false)
      else if e.state.accepts t then
        let depth := if 0 < progress then e.depth + 1 else e.depth
        match recoverTo r.stack v depth e.state with
        | some s => ({ r with stack := s }, true)
        | none => tryResorts v versions place cost progress t rest r
      else tryResorts v versions place cost progress t rest r

/-- Takes the run of tokens skipped so far off a version, if there is one, and joins a tree to it. -/
def joinRun (s : Stack) (v progress : Nat) (start : Cursor) (run : Tree) : Stack × Tree :=
  if 0 < progress then
    match s.pop v 1 with
    | (i, ts :: _) :: _ =>
      (s.setVersion v fun h => { h with top := i }, Tree.build .skipped start (ts ++ [run]))
    | _ => (s, run)
  else (s, run)

/-- Passes over the lookahead: it joins the run of tokens skipped so far. -/
def passOver (s : Stack) (v progress : Nat) (lookahead : Tree) : Stack :=
  let lookahead :=
    if lookahead.label == .terminal .comment then lookahead.markExtra true else lookahead
  let start := lookahead.info.start
  let (s, run) := joinRun s v progress start (Tree.build .skipped start [lookahead])
  let s := s.push v (some run) .recovery
  match lookahead.info.tags with
  | some tags => s.setVersion v fun h => { h with tags := some tags }
  | none => s

/-- Tries the states below a fault, if there are any to try and the lookahead is a token. -/
def tryBelow (r : Reader) (v : Nat) (place : Cursor) (cost progress : Nat)
    (resorts : Option (List Resort)) (lookahead : Label) : Reader × Bool :=
  match resorts, lookahead with
  | some es, .terminal t => tryResorts v r.stack.versions.length place cost progress t es r
  | _, _ => (r, false)

/-- Carries on after a fault with a lookahead: in a state below that can use it, and also by passing
over it. At the end of the text everything becomes one fault. -/
def recover (r : Reader) (v : Nat) (lookahead : Tree) : Reader :=
  let place := r.stack.place v
  let resorts := (r.stack.version v).resorts
  let (progress, s) := r.stack.progress v
  let cost := s.cost v
  let (r, recovered) := tryBelow { r with stack := s } v place cost progress resorts lookahead.label
  if lookahead.label == .terminal .endOfText then
    let s := r.stack.push v (some (Tree.build .fault place [])) .start
    accept { r with stack := s } v lookahead
  else if recovered && (maxVersions < r.stack.versions.length || lookahead.info.changedTags) then
    { r with stack := r.stack.halt v }
  else
    let i := lookahead.info
    let price := cost + prices.skippedTree +
      (i.stop.offset - i.origin.offset) * prices.skippedByte +
      (i.stop.line - i.origin.line) * prices.skippedLine
    let (outdone, r) := r.isOutdone v price
    if outdone then { r with stack := r.stack.halt v }
    else { r with stack := passOver r.stack v progress lookahead }

/-- Looks for a token that the text lacks: with it the version `v` could use the lookahead. The
repaired reading is a version of its own. -/
def insertMissing (s : Stack) (v : Nat) (place : Cursor) (t : Terminal) :
    List Terminal → Stack × Bool
  | [] => (s, false)
  | m :: rest =>
    match (s.state v).next? m with
    | none => insertMissing s v place t rest
    | some next =>
      if next = s.state v || (next.reduce? t).isNone then insertMissing s v place t rest
      else
        let w := s.versions.length
        let copy := s.add { s.version v with resorts := none }
        let (s, shiftable) := reduceBefore (copy.push w (some (Tree.missing m place)) next) w t
        if shiftable then (s, true) else insertMissing s v place t rest

/-- Looks for a missing token unless one has been found before. -/
def insertOnce (s : Stack) (v : Nat) (place : Cursor) (t : Option Terminal) (inserted : Bool) :
    Stack × Bool :=
  match inserted, t with
  | false, some t => insertMissing s v place t Terminal.insertable
  | _, _ => (s, inserted)

/-- Marks the fault on the versions listed, after looking for a missing token on them until one is
found. -/
def markFaults (place : Cursor) (t : Option Terminal) : List Nat → Stack → Bool → Stack
  | [], s, _ => s
  | v :: rest, s, inserted =>
    let (s, inserted) := insertOnce s v place t inserted
    markFaults place t rest (s.push v none .recovery) inserted

/-- Joins versions into `v` as many times as told, each time the one that stands at `w`. -/
def joinAll (v w : Nat) : (count : Nat) → Stack → Stack
  | 0, s => s
  | count + 1, s => joinAll v w count ((s.merge? v w).getD s)

def repair (r : Reader) (v : Nat) (lookahead : Tree) : Reader :=
  let before := r.stack.versions.length
  let s := reduceEvery r.stack v
  let after := s.versions.length
  let affected := v :: (List.range after).drop before
  let s := markFaults (s.place v) lookahead.label.terminal? affected s false
  let s := joinAll v before (after - before) s
  let s := s.setVersion v fun h => { h with resorts := some (s.resorts v) }
  recover { r with stack := s } v lookahead

/-- Uses a token on a version: reductions first, then the shift. A version with no use for it waits. -/
def consume (v : Nat) (lookahead : Tree) : (fuel : Nat) → Reader → Reader
  | 0, r => { r with stack := r.stack.halt v }
  | fuel + 1, r =>
    let s := r.stack
    let state := s.state v
    let wait : Reader := { r with stack := s.setVersion v fun h =>
      { h with status := .paused lookahead, faultProgress := (s.top v).progress } }
    match lookahead.label with
    | .terminal t =>
      if t = .comment then
        { r with stack := shift s v (lookahead.markExtra true) state }
      else if state = .recovery then recover r v lookahead
      else if state = .finished && t = .endOfText then accept r v lookahead
      else
        match state.reduce? t with
        | some (n, count) =>
          let after := reduce s v n count
          match added? s after with
          | some w => consume v lookahead fuel { r with stack := after.replace v w }
          | none => { r with stack := after.setVersion v fun h =>
              { h with status := .paused lookahead, faultProgress := (after.top v).progress } }
        | none =>
          match state.shift? t with
          | some next => { r with stack := shift s v (lookahead.markExtra false) next }
          | none => wait
    | _ => if state = .recovery then recover r v lookahead else wait
where
  shift (s : Stack) (v : Nat) (tree : Tree) (next : State) : Stack :=
    let s := s.push v (some tree) next
    match tree.info.tags with
    | some tags => s.setVersion v fun h => { h with tags := some tags }
    | none => s

/-- Reads one token on a version. A byte order mark at the start of the text belongs to no token. -/
def advance (r : Reader) (v : Nat) : Reader :=
  let s := r.stack
  let place := s.place v
  let token := Token.read (s.state v) (s.hasMoved v) (s.version v).tags place.pastMark
  consume v (Tree.ofToken place token) (s.vertices.size + 2) r

/-- Reads on with one version until it has come past the point that any version reached before, or,
for later versions, as far as that point. -/
def advanceVersion (v : Nat) : (fuel : Nat) → Reader → (reached : Nat) → Reader × Nat
  | 0, r, reached => (r, reached)
  | fuel + 1, r, reached =>
    if r.stack.isActive v then
      let r := r.advance v
      let now := (r.stack.place v).offset
      if reached < now || (0 < v && now == reached) then (r, now)
      else advanceVersion v fuel r reached
    else (r, reached)

/-- Reads on with each version in turn, those added on the way included. -/
def advanceAll (effort : Nat) : (fuel v : Nat) → Reader → (reached : Nat) → Reader × Nat
  | 0, _, r, reached => (r, reached)
  | fuel + 1, v, r, reached =>
    if v < r.stack.versions.length then
      let (r, reached) := advanceVersion v effort r reached
      advanceAll effort fuel (v + 1) r reached
    else (r, reached)

/-- Compares the version `i` with those before it, from `j` on. The better ones move forward, and
versions that are clearly worse or have come to the same point are dropped. Gives the index at which
the sweep goes on. -/
def sweepVersion (mine : Standing) : (fuel i j : Nat) → Stack → Stack × Nat
  | 0, i, _, s => (s, i + 1)
  | fuel + 1, i, j, s =>
    if i ≤ j then (s, i + 1)
    else
      let (other, s) := standing s j
      match other.compare mine with
      | .takeLeft => (s.remove i, i)
      | .preferLeft | .neither =>
        match s.merge? j i with
        | some s => (s, i)
        | none => sweepVersion mine fuel i (j + 1) s
      | .preferRight =>
        match s.merge? j i with
        | some s => (s, i)
        | none =>
          let a := s.version i
          let b := s.version j
          let s := (s.setVersion i fun _ => b).setVersion j fun _ => a
          sweepVersion mine fuel i (j + 1) s
      | .takeRight => sweepVersion mine fuel (i - 1) j (s.remove j)

/-- Sweeps all versions; gives the least cost of one that is not in a fault. -/
def sweep : (fuel i : Nat) → Stack → (least : Option Nat) → Stack × Option Nat
  | 0, _, s, least => (s, least)
  | fuel + 1, i, s, least =>
    if s.versions.length ≤ i then (s, least)
    else if (s.version i).isHalted then sweep fuel i (s.remove i) least
    else
      let (mine, s) := standing s i
      let least := if mine.inFault then least else some (min mine.cost (least.getD mine.cost))
      let (s, next) := sweepVersion mine (2 * s.versions.length + 2) i 0 s
      sweep fuel next s least

/-- Repairs the first waiting version if no version before it can go on, and drops all other waiting
versions. -/
def resume : (fuel i : Nat) → (last : Nat) → Reader → (unpaused : Bool) → (least : Option Nat) →
    Reader × Option Nat
  | 0, _, _, r, _, least => (r, least)
  | fuel + 1, i, last, r, unpaused, least =>
    if last ≤ i then (r, least)
    else
      match (r.stack.version i).status with
      | .paused lookahead =>
        if !unpaused && r.accepted < maxVersions then
          let least := some (r.stack.cost i)
          let s := r.stack.setVersion i fun h => { h with status := .active }
          resume fuel (i + 1) last (repair { r with stack := s } i lookahead) true least
        else resume fuel i (last - 1) { r with stack := r.stack.remove i } unpaused least
      | _ => resume fuel (i + 1) last r true least

/-- Orders and thins out the versions, and repairs one if none can go on. -/
def condense (r : Reader) : Reader × Option Nat :=
  let n := r.stack.versions.length
  let (s, least) := sweep (2 * n + 2) 0 r.stack none
  let s := { s with versions := s.versions.take maxVersions }
  resume (s.versions.length + 1) 0 s.versions.length { r with stack := s } false least

/-- Reads until the best whole tree is cheaper than every version still at work. -/
def run (effort : Nat) : (fuel : Nat) → Reader → (reached : Nat) → Reader
  | 0, r, _ => r
  | fuel + 1, r, reached =>
    let (r, reached) := advanceAll effort (4 * maxVersions + 16) 0 r reached
    let count := r.stack.versions.length
    let (r, least) := condense r
    let done := match r.finished, least with
      | some t, some cost => t.cost < cost
      | some _, none => true
      | none, _ => false
    if done || count == 0 then r else run effort fuel r reached

/-- The tree of a text; a reading that comes to no end would be a fault. -/
def read (t : Text) : Tree :=
  let effort := 4 * t.length + 64
  let r := run effort effort { stack := Stack.start t } 0
  r.finished.getD (Tree.build .fault (Cursor.start t) [])

end Reader

end TemplateMarkup.Markup
