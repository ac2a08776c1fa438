import TemplateMarkup.Markup.Stack
import TemplateMarkup.Proofs.Markup.Automaton
import TemplateMarkup.Proofs.Markup.Trees

/-!
Sound stacks. A set `G` of vertices is closed under links; each link in it joins two points of the
text by a tree that leads from the one to the other, or marks a fault, and the cost of a vertex is
what the trees below it cost. Versions that can still go on stand in `G` and cost at least `k`.
Operations on the stack keep it sound: they leave the points of old vertices alone and may add to `G`.
-/
namespace TemplateMarkup.Markup

open Cursor

structure Point where
  state : State
  place : Cursor
  cost : Nat

def Vertex.point (v : Vertex) : Point := ⟨v.state, v.place, v.cost⟩

def Tree.EndsPlain (x : Tree) : Prop := ∃ y, x.children.getLast? = some y ∧ y.isExtra = false

structure Point.JoinedBy (below above : Point) (x : Tree) : Prop where
  sound : x.Sound
  gap : below.place.Reaches x.info.origin
  stop : above.place = x.info.stop
  cost : above.cost = below.cost + x.cost
  step : above.state = .recovery ∨ (x.isExtra = true ∧ below.state = above.state) ∨
    (x.isExtra = false ∧ below.state.after? x.label = some above.state ∧
      (x.info.missing = true → above.state.completed?.isSome))
  skipped : x.label = .skipped → x.isExtra = false ∧ above.state = .recovery
  fault : x.label = .fault → x.isExtra = true ∧ below.state = above.state ∧ x.EndsPlain

/-- What a link asks of the points it joins; a link without a tree leads to recovery on the spot. -/
def Point.Joined (below above : Point) : Option Tree → Prop
  | some x => below.JoinedBy above x
  | none => above.state = .recovery ∧ above.place = below.place ∧ above.cost = below.cost

def Lookahead (c : Cursor) (x : Tree) : Prop := ∃ token, token.Follows c ∧ x = Tree.ofToken c token

def Version.movedTo (v : Version) (top : Nat) : Version := { v with top }

structure Version.Alike (a b : Version) : Prop where
  top : a.top = b.top
  status : a.status = b.status
  tags : a.tags = b.tags

namespace Version.Alike

theorem refl (a : Version) : a.Alike a := ⟨rfl, rfl, rfl⟩

theorem trans {a b c : Version} (first : a.Alike b) (second : b.Alike c) : a.Alike c :=
  ⟨first.top.trans second.top, first.status.trans second.status, first.tags.trans second.tags⟩

end Version.Alike

namespace Stack

def point (s : Stack) (i : Nat) : Point := (s.vertex i).point

/-- The part of a stack in `G`. -/
structure Graph (t : Text) (G : Nat → Prop) (s : Stack) : Prop where
  bound : ∀ {i}, G i → i < s.vertices.size
  place : ∀ {i}, G i → (s.point i).place.In t
  closed : ∀ {i}, G i → ∀ l ∈ (s.vertex i).links, G l.below
  joined : ∀ {i}, G i → ∀ l ∈ (s.vertex i).links, (s.point l.below).Joined (s.point i) l.tree
  ground : ∀ {i}, G i → (s.vertex i).links = [] → (s.point i).cost = 0

/-- A version that stands in `G`, costs at least `k` and waits, if it does, at a token that it has
read there in a regular state. -/
structure Fits (k : Nat) (G : Nat → Prop) (s : Stack) (v : Version) : Prop where
  top : G v.top
  cost : k ≤ (s.point v.top).cost
  waits : ∀ {x}, v.status = .paused x →
    Lookahead (s.point v.top).place x ∧ (s.point v.top).state ≠ .recovery

structure Sound (t : Text) (k : Nat) (G : Nat → Prop) (s : Stack) : Prop where
  graph : s.Graph t G
  fits : ∀ v ∈ s.versions, v.isHalted = false → s.Fits k G v

/-- Every fault is fresh: a vertex in recovery stands right on regular ones, with no tree between. -/
def Fresh (G : Nat → Prop) (s : Stack) : Prop :=
  ∀ i, G i → (s.point i).state = .recovery → ∀ l ∈ (s.vertex i).links,
    l.tree = none ∧ (s.point l.below).state ≠ .recovery

/-- The second stack has more vertices; those in `G` kept their points and are in `G'`. -/
structure Covers (G G' : Nat → Prop) (s s' : Stack) : Prop where
  keeps : ∀ {i}, G i → G' i
  point : ∀ {i}, G i → s'.point i = s.point i

/-- The stack has grown without reading on from a fault. -/
structure Grows (G G' : Nat → Prop) (s s' : Stack) : Prop extends Covers G G' s s' where
  fresh : s.Fresh G → s'.Fresh G'

theorem Covers.trans {G G' G'' : Nat → Prop} {s s' s'' : Stack} (first : Covers G G' s s')
    (second : Covers G' G'' s' s'') : Covers G G'' s s'' :=
  ⟨fun inside => second.keeps (first.keeps inside),
    fun inside => (second.point (first.keeps inside)).trans (first.point inside)⟩

theorem Grows.refl (G : Nat → Prop) (s : Stack) : Grows G G s s := ⟨⟨id, fun _ => rfl⟩, id⟩

theorem Grows.trans {G G' G'' : Nat → Prop} {s s' s'' : Stack} (first : Grows G G' s s')
    (second : Grows G' G'' s' s'') : Grows G G'' s s'' :=
  ⟨first.toCovers.trans second.toCovers, fun fresh => second.fresh (first.fresh fresh)⟩

section Versions

variable {t : Text} {k : Nat} {G G' : Nat → Prop} {s s' : Stack} {v w : Nat}

theorem point_congr (same : s'.vertices = s.vertices) : s'.point = s.point := by
  funext i
  rw [point, point, vertex, vertex, same]

theorem Graph.congr (graph : s.Graph t G) (same : s'.vertices = s.vertices) : s'.Graph t G := by
  obtain ⟨vertices, versions⟩ := s
  obtain ⟨vertices', versions'⟩ := s'
  obtain rfl : vertices' = vertices := same
  exact ⟨graph.bound, graph.place, graph.closed, graph.joined, graph.ground⟩

/-- Vertices outside of `G` do not matter. -/
theorem Graph.of_vertices (graph : s.Graph t G) (larger : s.vertices.size ≤ s'.vertices.size)
    (same : ∀ {i}, G i → s'.vertex i = s.vertex i) : s'.Graph t G := by
  have points : ∀ {i}, G i → s'.point i = s.point i := fun inside => congrArg Vertex.point (same inside)
  refine ⟨?_, ?_, ?_, ?_, ?_⟩
  · exact fun inside => Nat.lt_of_lt_of_le (graph.bound inside) larger
  · intro i inside
    rw [points inside]
    exact graph.place inside
  · intro i inside
    rw [same inside]
    exact graph.closed inside
  · intro i inside l member
    rw [same inside] at member
    rw [points inside, points (graph.closed inside l member)]
    exact graph.joined inside l member
  · intro i inside empty
    rw [same inside] at empty
    rw [points inside]
    exact graph.ground inside empty

theorem Fits.congr {x : Version} (fits : s.Fits k G x) (same : s'.vertices = s.vertices) :
    s'.Fits k G x := by
  have points := point_congr same
  exact ⟨fits.top, points ▸ fits.cost, points ▸ fits.waits⟩

theorem Fresh.congr (fresh : s.Fresh G) (same : s'.vertices = s.vertices) : s'.Fresh G := by
  obtain ⟨vertices, versions⟩ := s
  obtain ⟨vertices', versions'⟩ := s'
  obtain rfl : vertices' = vertices := same
  exact fresh

theorem Covers.of_vertices (G : Nat → Prop) (same : s'.vertices = s.vertices) : Covers G G s s' :=
  ⟨id, fun _ => congrFun (point_congr same) _⟩

theorem Grows.of_vertices (G : Nat → Prop) (same : s'.vertices = s.vertices) : Grows G G s s' :=
  ⟨Covers.of_vertices G same, fun fresh => fresh.congr same⟩

theorem fits_covers {x : Version} (covers : Covers G G' s s') (fits : s.Fits k G x) :
    s'.Fits k G' x := by
  have same := covers.point fits.top
  refine ⟨covers.keeps fits.top, ?_, ?_⟩
  · rw [same]
    exact fits.cost
  · rw [same]
    exact fits.waits

theorem fits_alike {x y : Version} (alike : x.Alike y) (fits : s.Fits k G x) : s.Fits k G y := by
  refine ⟨alike.top ▸ fits.top, alike.top ▸ fits.cost, ?_⟩
  intro z waits
  rw [← alike.top]
  exact fits.waits (alike.status.trans waits)

theorem alike_isHalted {x y : Version} (alike : x.Alike y) : x.isHalted = y.isHalted := by
  simp only [Version.isHalted, alike.status]

theorem version_mem (inside : v < s.versions.length) : s.version v ∈ s.versions := by
  simp [version, inside]

theorem version_lt (live : (s.version v).isHalted = false) : v < s.versions.length := by
  rcases Nat.lt_or_ge v s.versions.length with inside | outside
  · exact inside
  · simp [version, outside, Version.isHalted] at live

theorem version_lt_of_active (active : (s.version v).status = .active) :
    v < s.versions.length := by
  apply version_lt
  simp [Version.isHalted, active]

theorem Sound.fits_version (sound : s.Sound t k G) (live : (s.version v).isHalted = false) :
    s.Fits k G (s.version v) :=
  sound.fits _ (version_mem (version_lt live)) live

theorem Sound.fits_active (sound : s.Sound t k G) (active : (s.version v).status = .active) :
    s.Fits k G (s.version v) :=
  sound.fits_version (by simp [Version.isHalted, active])

theorem sound_of_versions (graph : s.Graph t G)
    (fits : ∀ v, (s.version v).isHalted = false → s.Fits k G (s.version v)) : s.Sound t k G := by
  refine ⟨graph, ?_⟩
  intro x member live
  obtain ⟨v, inside, rfl⟩ := List.mem_iff_getElem.mp member
  have same : s.version v = s.versions[v] := by simp [version, inside]
  rw [← same] at live ⊢
  exact fits v live

theorem version_add_lt (x : Version) (inside : v < s.versions.length) :
    (s.add x).version v = s.version v := by
  simp only [version, add, List.getD_eq_getElem?_getD, List.getElem?_append_left inside]

theorem version_add_eq (x : Version) : (s.add x).version s.versions.length = x := by
  simp [version, add]

theorem version_setVersion_eq (f : Version → Version) (inside : v < s.versions.length) :
    (s.setVersion v f).version v = f (s.version v) := by
  simp [version, setVersion, inside]

theorem version_setVersion_ne (f : Version → Version) (other : w ≠ v) :
    (s.setVersion v f).version w = s.version w := by
  simp only [version, setVersion, List.getD_eq_getElem?_getD, List.getElem?_modify]
  simp [other.symm]

@[simp] theorem length_setVersion (f : Version → Version) :
    (s.setVersion v f).versions.length = s.versions.length := by
  simp [setVersion]

theorem version_remove_lt (before : v < w) : (s.remove w).version v = s.version v := by
  simp only [version, remove, List.getD_eq_getElem?_getD, List.getElem?_eraseIdx_of_lt before]

theorem version_remove_ge (after : w ≤ v) : (s.remove w).version v = s.version (v + 1) := by
  simp only [version, remove, List.getD_eq_getElem?_getD, List.getElem?_eraseIdx_of_ge after]

theorem length_remove (inside : w < s.versions.length) :
    (s.remove w).versions.length = s.versions.length - 1 :=
  List.length_eraseIdx_of_lt inside

theorem mem_setVersion {f : Version → Version} {x : Version}
    (member : x ∈ (s.setVersion v f).versions) :
    x ∈ s.versions ∨ (v < s.versions.length ∧ x = f (s.version v)) := by
  obtain ⟨i, bound, rfl⟩ := List.mem_iff_getElem.mp member
  have inside : i < s.versions.length := by simpa using bound
  simp only [setVersion, List.getElem_modify]
  split
  · rename_i same
    subst same
    right
    exact ⟨inside, by simp [version, inside]⟩
  · left
    exact List.getElem_mem inside

/-- Changing one version keeps a stack sound if the changed version fits. -/
theorem setVersion_sound (f : Version → Version) (sound : s.Sound t k G)
    (fits : v < s.versions.length → (f (s.version v)).isHalted = false →
      s.Fits k G (f (s.version v))) : (s.setVersion v f).Sound t k G := by
  refine ⟨sound.graph.congr rfl, ?_⟩
  intro x member live
  rcases mem_setVersion member with old | ⟨inside, rfl⟩
  · exact (sound.fits x old live).congr rfl
  · exact (fits inside live).congr rfl

theorem setVersion_alike_sound (f : Version → Version)
    (alike : (s.version v).Alike (f (s.version v))) (sound : s.Sound t k G) :
    (s.setVersion v f).Sound t k G := by
  apply setVersion_sound f sound
  intro inside live
  rw [← alike_isHalted alike] at live
  exact fits_alike alike (sound.fits_version live)

theorem remove_sound (sound : s.Sound t k G) : (s.remove w).Sound t k G :=
  ⟨sound.graph.congr rfl,
    fun x member live => (sound.fits x (List.mem_of_mem_eraseIdx member) live).congr rfl⟩

theorem halt_sound (sound : s.Sound t k G) : (s.halt v).Sound t k G :=
  setVersion_sound _ sound fun _ live => by simp [Version.isHalted] at live

theorem add_sound {x : Version} (sound : s.Sound t k G) (fits : s.Fits k G x) :
    (s.add x).Sound t k G := by
  refine ⟨sound.graph.congr rfl, ?_⟩
  intro y member live
  rcases List.mem_append.mp member with old | new
  · exact (sound.fits y old live).congr rfl
  · obtain rfl := List.mem_singleton.mp new
    exact fits.congr rfl

theorem sound_grows (sound : s.Sound t k G) (graph : s'.Graph t G') (grows : Grows G G' s s')
    (versions : ∀ x ∈ s'.versions, x ∈ s.versions ∨ s'.Fits k G' x) : s'.Sound t k G' := by
  refine ⟨graph, ?_⟩
  intro x member live
  rcases versions x member with old | fits
  · exact fits_covers grows.toCovers (sound.fits x old live)
  · exact fits

end Versions

section Pushes

variable {t : Text} {k : Nat} {G : Nat → Prop} {s : Stack}

def withNext (G : Nat → Prop) (s : Stack) (i : Nat) : Prop := G i ∨ i = s.vertices.size

theorem vertex_push_lt {x : Vertex} {versions : List Version} {i : Nat}
    (inside : i < s.vertices.size) :
    (Stack.mk (s.vertices.push x) versions).vertex i = s.vertex i := by
  simp [vertex, Array.getElem?_push_lt inside, Array.getD_eq_getD_getElem?, inside]

theorem vertex_push_eq {x : Vertex} {versions : List Version} :
    (Stack.mk (s.vertices.push x) versions).vertex s.vertices.size = x := by
  simp [vertex, Array.getD_eq_getD_getElem?]

theorem graph_push {x : Vertex} (versions : List Version) (graph : s.Graph t G)
    (place : x.place.In t) (based : x.links ≠ [])
    (links : ∀ l ∈ x.links, G l.below ∧ (s.point l.below).Joined x.point l.tree) :
    (Stack.mk (s.vertices.push x) versions).Graph t (withNext G s) ∧
      Covers G (withNext G s) s (Stack.mk (s.vertices.push x) versions) := by
  have old : ∀ {i}, G i → (Stack.mk (s.vertices.push x) versions).vertex i = s.vertex i :=
    fun inside => vertex_push_lt (graph.bound inside)
  have points : ∀ {i}, G i → (Stack.mk (s.vertices.push x) versions).point i = s.point i :=
    fun inside => congrArg Vertex.point (old inside)
  have newest : (Stack.mk (s.vertices.push x) versions).point s.vertices.size = x.point :=
    congrArg Vertex.point vertex_push_eq
  refine ⟨⟨?_, ?_, ?_, ?_, ?_⟩, ⟨Or.inl, points⟩⟩
  · rintro i (inside | rfl)
    · have := graph.bound inside
      simp only [Array.size_push]
      omega
    · simp
  · rintro i (inside | rfl)
    · rw [points inside]
      exact graph.place inside
    · rw [newest]
      exact place
  · rintro i (inside | rfl) l member
    · rw [old inside] at member
      exact Or.inl (graph.closed inside l member)
    · rw [vertex_push_eq] at member
      exact Or.inl (links l member).1
  · rintro i (inside | rfl) l member
    · rw [old inside] at member
      rw [points inside, points (graph.closed inside l member)]
      exact graph.joined inside l member
    · rw [vertex_push_eq] at member
      obtain ⟨below, joined⟩ := links l member
      rw [points below, newest]
      exact joined
  · rintro i (inside | rfl) empty
    · rw [old inside] at empty
      rw [points inside]
      exact graph.ground inside empty
    · rw [vertex_push_eq] at empty
      exact absurd empty based

end Pushes

end Stack

def Point.next (p : Point) (tree : Option Tree) (state : State) : Point :=
  match tree with
  | some x => ⟨state, x.info.stop, p.cost + x.cost⟩
  | none => ⟨state, p.place, p.cost⟩

@[simp] theorem Point.next_state (p : Point) (tree : Option Tree) (state : State) :
    (p.next tree state).state = state := by
  cases tree <;> rfl

/-- Below a regular state there is a tree, and a regular state below it. -/
theorem Point.joined_regular {below above : Point} {tree : Option Tree}
    (joined : below.Joined above tree) (regular : above.state ≠ .recovery) :
    tree.isSome ∧ below.state ≠ .recovery := by
  cases tree with
  | none => exact absurd joined.1 regular
  | some x =>
    refine ⟨rfl, ?_⟩
    rcases joined.step with recovery | ⟨_, same⟩ | ⟨_, step, _⟩
    · exact absurd recovery regular
    · exact same ▸ regular
    · intro recovery
      simp [recovery, State.after?_recovery] at step

theorem Point.joined_place {t : Text} {below above : Point} {tree : Option Tree}
    (joined : below.Joined above tree) (inside : below.place.In t) : above.place.In t := by
  cases tree with
  | none => exact joined.2.1 ▸ inside
  | some x =>
    rw [joined.stop]
    exact in_reaches inside (reaches_trans joined.gap joined.sound.reaches)

namespace Stack

section Pushes

variable {t : Text} {k : Nat} {G : Nat → Prop} {s : Stack} {v w : Nat}
  (tree : Option Tree) (state : State)

/-- What a push does: a new vertex over the top of a version, which becomes its top. -/
theorem push_eq (s : Stack) (v : Nat) : ∃ (x : Vertex) (f : Version → Version),
    s.push v tree state = (Stack.mk (s.vertices.push x) s.versions).setVersion v f ∧
      x.point = (s.point (s.version v).top).next tree state ∧
      x.links = [⟨(s.version v).top, tree⟩] ∧
      ∀ h, (Version.movedTo h s.vertices.size).Alike (f h) := by
  cases tree with
  | none =>
    refine ⟨_, _, rfl, rfl, rfl, ?_⟩
    intro h
    exact ⟨by simp [Version.movedTo], rfl, rfl⟩
  | some x =>
    refine ⟨_, _, rfl, rfl, rfl, ?_⟩
    intro h
    exact ⟨by simp [Version.movedTo], rfl, rfl⟩

variable {tree state}

theorem push_graph (graph : s.Graph t G) (top : G (s.version v).top)
    (joined : (s.point (s.version v).top).Joined
      ((s.point (s.version v).top).next tree state) tree) :
    (s.push v tree state).Graph t (withNext G s) ∧
      Covers G (withNext G s) s (s.push v tree state) := by
  obtain ⟨x, f, same, point, links, _⟩ := push_eq tree state s v
  have place : x.place.In t := by
    have := Point.joined_place joined (graph.place top)
    rwa [← point] at this
  obtain ⟨larger, covers⟩ := graph_push (s := s) (x := x) s.versions graph place (by simp [links]) (by
    intro l member
    rw [links] at member
    obtain rfl := List.mem_singleton.mp member
    rw [point]
    exact ⟨top, joined⟩)
  rw [same]
  exact ⟨larger.congr rfl, covers.trans (Covers.of_vertices _ rfl)⟩

theorem push_point : (s.push v tree state).point s.vertices.size =
    (s.point (s.version v).top).next tree state := by
  obtain ⟨x, f, same, point, _, _⟩ := push_eq tree state s v
  rw [same, ← point]
  exact congrArg Vertex.point vertex_push_eq

theorem push_links : ((s.push v tree state).vertex s.vertices.size).links =
    [⟨(s.version v).top, tree⟩] := by
  obtain ⟨x, f, same, _, links, _⟩ := push_eq tree state s v
  rw [same, ← links]
  exact congrArg Vertex.links vertex_push_eq

theorem push_vertex {i : Nat} (inside : i < s.vertices.size) :
    (s.push v tree state).vertex i = s.vertex i := by
  obtain ⟨x, f, same, _, _, _⟩ := push_eq tree state s v
  rw [same]
  exact vertex_push_lt inside

theorem push_size : (s.push v tree state).vertices.size = s.vertices.size + 1 := by
  obtain ⟨x, f, same, _, _, _⟩ := push_eq tree state s v
  rw [same]
  simp [setVersion]

theorem push_version (tree : Option Tree) (state : State) (inside : v < s.versions.length) :
    ((s.version v).movedTo s.vertices.size).Alike ((s.push v tree state).version v) := by
  obtain ⟨x, f, same, _, _, alike⟩ := push_eq tree state s v
  rw [same, version_setVersion_eq f (s := Stack.mk (s.vertices.push x) s.versions) inside]
  exact alike _

theorem push_version_ne (other : w ≠ v) : (s.push v tree state).version w = s.version w := by
  obtain ⟨x, f, same, _, _, _⟩ := push_eq tree state s v
  rw [same, version_setVersion_ne f other]
  rfl

@[simp] theorem length_push : (s.push v tree state).versions.length = s.versions.length := by
  obtain ⟨x, f, same, _, _, _⟩ := push_eq tree state s v
  rw [same]
  simp

/-- A push that does not read on from a fault. -/
theorem push_grows (graph : s.Graph t G) (top : G (s.version v).top)
    (joined : (s.point (s.version v).top).Joined
      ((s.point (s.version v).top).next tree state) tree)
    (mark : state = .recovery → tree = none ∧ (s.point (s.version v).top).state ≠ .recovery) :
    Grows G (withNext G s) s (s.push v tree state) := by
  obtain ⟨_, covers⟩ := push_graph graph top joined
  refine ⟨covers, fun fresh => ?_⟩
  rintro i (inside | rfl) recovery l member
  · rw [push_vertex (graph.bound inside)] at member
    rw [covers.point inside] at recovery
    rw [covers.point (graph.closed inside l member)]
    exact fresh i inside recovery l member
  · rw [push_links] at member
    obtain rfl := List.mem_singleton.mp member
    rw [push_point, Point.next_state] at recovery
    rw [covers.point top]
    exact mark recovery

/-- A push on a version that goes on, if all other versions fit. -/
theorem push_sound (tree : Option Tree) (state : State) (graph : s.Graph t G)
    (active : (s.version v).status = .active) (top : G (s.version v).top)
    (joined : (s.point (s.version v).top).Joined
      ((s.point (s.version v).top).next tree state) tree)
    (others : ∀ u ≠ v, (s.version u).isHalted = false → s.Fits k G (s.version u))
    (cost : k ≤ ((s.point (s.version v).top).next tree state).cost) :
    (s.push v tree state).Sound t k (withNext G s) := by
  obtain ⟨larger, covers⟩ := push_graph graph top joined
  refine sound_of_versions larger ?_
  intro u live
  by_cases same : u = v
  · subst same
    have alike := push_version tree state (version_lt_of_active active)
    have top : ((s.push u tree state).version u).top = s.vertices.size := alike.top.symm
    refine ⟨?_, ?_, ?_⟩
    · rw [top]
      exact Or.inr rfl
    · rw [top, push_point]
      exact cost
    · intro x waits
      rw [← alike.status] at waits
      exact absurd (active.symm.trans waits) (by simp)
  · rw [push_version_ne same] at live ⊢
    exact fits_covers covers (others u same live)

theorem push_last {before : List Version} {last : Version} (graph : s.Graph t G)
    (versions : s.versions = before ++ [last]) (top : G last.top) (regular : state ≠ .recovery)
    (joined : (s.point last.top).Joined ((s.point last.top).next tree state) tree) :
    ∃ G' next, Grows G G' s (s.push before.length tree state) ∧
      (s.push before.length tree state).Graph t G' ∧
      (s.push before.length tree state).versions = before ++ [next] ∧ G' next.top ∧
      next.status = last.status ∧ next.tags = last.tags ∧
      (s.push before.length tree state).point next.top = (s.point last.top).next tree state := by
  have version : s.version before.length = last := by simp [Stack.version, versions]
  obtain ⟨x, f, same, _, _, alike⟩ := push_eq tree state s before.length
  have versionsNext : (s.push before.length tree state).versions = before ++ [f last] := by
    rw [same]
    simp [setVersion, versions, List.modify_eq_take_drop]
  have topNext : (f last).top = s.vertices.size := (alike last).top.symm
  rw [← version] at top joined
  have grows := push_grows graph top joined fun recovery => absurd recovery regular
  refine ⟨withNext G s, f last, grows, (push_graph graph top joined).1, versionsNext, ?_,
    (alike last).status.symm, (alike last).tags.symm, ?_⟩
  · rw [topNext]
    exact Or.inr rfl
  · rw [topNext, push_point, version]

end Pushes

section Merging

variable {t : Text} {k : Nat} {G : Nat → Prop} {s s' : Stack}

theorem vertex_setVertex_eq (f : Vertex → Vertex) {i : Nat} (inside : i < s.vertices.size) :
    (s.setVertex i f).vertex i = f (s.vertex i) := by
  simp [vertex, setVertex, Array.getD_eq_getD_getElem?, Array.getElem_modify, inside]

theorem vertex_setVertex_ne (f : Vertex → Vertex) {i j : Nat} (other : j ≠ i) :
    (s.setVertex i f).vertex j = s.vertex j := by
  simp [vertex, setVertex, Array.getD_eq_getD_getElem?, Array.getElem?_modify, other.symm]

/-- A link that may be added to a vertex. Under `F`, the faults of the stack are fresh. -/
structure Suits (F : Prop) (G : Nat → Prop) (s : Stack) (i : Nat) (l : Link) : Prop where
  below : G l.below
  joined : (s.point l.below).Joined (s.point i) l.tree
  fresh : F → (s.point i).state = .recovery → l.tree = none ∧ (s.point l.below).state ≠ .recovery

/-- Links have been added between vertices of the graph. -/
structure Links (F : Prop) (t : Text) (G : Nat → Prop) (s s' : Stack) : Prop where
  graph : s'.Graph t G
  covers : Covers G G s s'
  fresh : F → s'.Fresh G
  versions : s'.versions = s.versions

theorem suits_of_mem {F : Prop} {i j : Nat} {l : Link} (graph : s.Graph t G) (fresh : F → s.Fresh G)
    (inside : G j) (same : s.point j = s.point i) (member : l ∈ (s.vertex j).links) :
    s.Suits F G i l := by
  refine ⟨graph.closed inside l member, same ▸ graph.joined inside l member, ?_⟩
  intro holds recovery
  exact fresh holds j inside (same ▸ recovery) l member

theorem Suits.covers {F : Prop} {i : Nat} {l : Link} (suits : s.Suits F G i l) (above : G i)
    (covers : Covers G G s s') : s'.Suits F G i l := by
  refine ⟨suits.below, ?_, ?_⟩
  · rw [covers.point suits.below, covers.point above]
    exact suits.joined
  · rw [covers.point suits.below, covers.point above]
    exact suits.fresh

theorem links_refl {F : Prop} (graph : s.Graph t G) (fresh : F → s.Fresh G) : Links F t G s s :=
  ⟨graph, (Grows.refl G s).toCovers, fresh, rfl⟩

/-- One more link between vertices of the graph that fits keeps the graph. -/
theorem graph_link {F : Prop} {i : Nat} {link : Link} {f : Vertex → Vertex} (graph : s.Graph t G)
    (fresh : F → s.Fresh G) (above : G i) (suits : s.Suits F G i link)
    (point : (f (s.vertex i)).point = (s.vertex i).point)
    (links : (f (s.vertex i)).links = (s.vertex i).links ++ [link]) :
    Links F t G s (s.setVertex i f) := by
  have here := vertex_setVertex_eq f (graph.bound above)
  have points : ∀ j, (s.setVertex i f).point j = s.point j := by
    intro j
    by_cases same : j = i
    · subst same
      rw [Stack.point, here, point, Stack.point]
    · rw [Stack.point, vertex_setVertex_ne f same, Stack.point]
  have every : ∀ {j}, G j → ∀ l ∈ ((s.setVertex i f).vertex j).links, s.Suits F G j l := by
    intro j inside l member
    by_cases same : j = i
    · subst same
      rw [here, links] at member
      rcases List.mem_append.mp member with old | new
      · exact suits_of_mem graph fresh inside rfl old
      · exact List.mem_singleton.mp new ▸ suits
    · rw [vertex_setVertex_ne f same] at member
      exact suits_of_mem graph fresh inside rfl member
  refine ⟨⟨?_, ?_, ?_, ?_, ?_⟩, ⟨id, fun _ => points _⟩, ?_, rfl⟩
  · intro j inside
    simpa [setVertex] using graph.bound inside
  · intro j inside
    rw [points]
    exact graph.place inside
  · exact fun inside l member => (every inside l member).below
  · intro j inside l member
    rw [points, points]
    exact (every inside l member).joined
  · intro j inside empty
    rw [points]
    by_cases same : j = i
    · subst same
      rw [here, links] at empty
      simp at empty
    · rw [vertex_setVertex_ne f same] at empty
      exact graph.ground inside empty
  · intro holds j inside recovery l member
    rw [points] at recovery ⊢
    exact (every inside l member).fresh holds recovery

theorem point_eq_of_alike {i j : Nat} (graph : s.Graph t G) (first : G i) (second : G j)
    (state : (s.vertex i).state = (s.vertex j).state)
    (offset : (s.vertex i).place.offset = (s.vertex j).place.offset)
    (cost : (s.vertex i).cost = (s.vertex j).cost) : s.point i = s.point j := by
  have place : (s.vertex i).place = (s.vertex j).place :=
    in_unique (graph.place first) (graph.place second) offset
  simp only [point, Vertex.point, state, place, cost]

/-- Links that fit, added one after the other by a function that keeps the graph for each of them. -/
theorem foldl_links {F : Prop} {links : List Link} {i : Nat} {add : Stack → Link → Stack}
    (keeps : ∀ s l, s.Graph t G → (F → s.Fresh G) → s.Suits F G i l → Links F t G s (add s l))
    (graph : s.Graph t G) (fresh : F → s.Fresh G) (above : G i)
    (fit : ∀ l ∈ links, s.Suits F G i l) : Links F t G s (links.foldl add s) := by
  induction links generalizing s with
  | nil => exact links_refl graph fresh
  | cons l links ih =>
    have next := keeps s l graph fresh (fit l (by simp))
    have last := ih next.graph next.fresh fun m member =>
      (fit m (List.mem_cons_of_mem l member)).covers above next.covers
    exact ⟨last.graph, next.covers.trans last.covers, last.fresh, last.versions.trans next.versions⟩

theorem addLink_links {F : Prop} (fuel : Nat) {i : Nat} {link : Link} (graph : s.Graph t G)
    (fresh : F → s.Fresh G) (above : G i) (suits : s.Suits F G i link) :
    Links F t G s (addLink fuel s i link) := by
  induction fuel generalizing s i link with
  | zero => exact links_refl graph fresh
  | succ fuel ih =>
    rw [addLink]
    split
    · exact links_refl graph fresh
    · dsimp only
      split
      · rename_i l found
        split
        · exact links_refl graph fresh
        · rename_i differs
          -- the two vertices below are the same point, so the links of one fit the other
          have belowL := graph.closed above l (List.mem_of_find?_eq_some found)
          have same : s.point link.below = s.point l.below := by
            have alike := List.find?_some found
            simp only [Bool.and_eq_true, Bool.or_eq_true, beq_iff_eq] at alike
            rcases alike.2 with equal | ⟨⟨state, offset⟩, cost⟩
            · exact absurd equal differs
            · exact (point_eq_of_alike graph belowL suits.below state offset cost).symm
          refine foldl_links (i := l.below) ?_ graph fresh belowL ?_
          · exact fun s m graph fresh suitsM => ih graph fresh belowL suitsM
          · exact fun m memberM => suits_of_mem graph fresh suits.below same memberM
      · split
        · exact links_refl graph fresh
        · exact graph_link (f := fun v => { v with
              links := v.links ++ [link]
              progress := max v.progress
                ((s.vertex link.below).progress + (link.tree.map Tree.progress).getD 0) })
            graph fresh above suits rfl rfl

theorem canMerge_iff {v w : Nat} : s.canMerge v w = true ↔
    (s.version v).status = .active ∧ (s.version w).status = .active ∧
      (s.top v).state = (s.top w).state ∧ (s.top v).place.offset = (s.top w).place.offset ∧
      (s.top v).cost = (s.top w).cost ∧ (s.version v).tags = (s.version w).tags := by
  have active : ∀ u : Nat, s.isActive u = true ↔ (s.version u).status = .active := by
    intro u
    cases status : (s.version u).status <;> simp [isActive, Version.isActive, status]
  simp only [canMerge, Bool.and_eq_true, beq_iff_eq, active, and_assoc]

/-- What a merge leaves: the versions other than `w`, of which `v` may have a new mark. -/
theorem merge?_spec {v w : Nat} (sound : s.Sound t k G) (merged : s.merge? v w = some s') :
    s'.Sound t k G ∧ Grows G G s s' ∧ w < s.versions.length ∧
      ∃ f : Version → Version, (∀ x : Version, x.Alike (f x)) ∧
        s'.versions = (s.versions.modify v f).eraseIdx w := by
  unfold merge? at merged
  split at merged
  · rename_i can
    obtain ⟨activeV, activeW, state, offset, cost, _⟩ := canMerge_iff.mp can
    have topV := (sound.fits_active activeV).top
    have topW := (sound.fits_active activeW).top
    have same := point_eq_of_alike sound.graph topV topW state offset cost
    have keeps : ∀ (u : Stack) (l : Link), u.Graph t G → (s.Fresh G → u.Fresh G) →
        u.Suits (s.Fresh G) G (s.version v).top l →
        Links (s.Fresh G) t G u (addLink u.vertices.size u (s.version v).top l) :=
      fun u l graph fresh suits => addLink_links _ graph fresh topV suits
    have fit : ∀ l ∈ (s.top w).links, s.Suits (s.Fresh G) G (s.version v).top l :=
      fun l member => suits_of_mem sound.graph id topW same.symm member
    obtain ⟨graph, covers, fresh, versions⟩ := foldl_links keeps sound.graph id topV fit
    dsimp only at merged
    generalize (s.top w).links.foldl
      (fun u l => addLink u.vertices.size u (s.version v).top l) s = u at merged graph covers fresh versions
    have grows : Grows G G s u := ⟨covers, fresh⟩
    have larger : u.Sound t k G :=
      sound_grows sound graph grows fun x member => Or.inl (versions ▸ member)
    obtain rfl := Option.some.inj merged
    split
    · let f (h : Version) : Version :=
        { h with faultProgress := (u.vertex (s.version v).top).progress }
      refine ⟨remove_sound (setVersion_alike_sound f ⟨rfl, rfl, rfl⟩ larger),
        grows.trans (Grows.of_vertices _ rfl), version_lt_of_active activeW, f, fun x => ⟨rfl, rfl, rfl⟩, ?_⟩
      simp only [remove, setVersion, versions, f]
    · refine ⟨remove_sound larger, grows.trans (Grows.of_vertices _ rfl),
        version_lt_of_active activeW, id, fun x => Version.Alike.refl x, ?_⟩
      simp only [remove, versions, List.modify_id]
  · simp at merged

end Merging

end Stack

end TemplateMarkup.Markup
