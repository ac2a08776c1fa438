import Mathlib.Data.List.Forall2
import TemplateMarkup.Markup.Node
import TemplateMarkup.Proofs.Markup.Courses

/-!
Trees that are alike: they have the same rules over the same tokens, and each token of the first one is
tied to its token of the second one in a given way. Piles of such trees go on alike with tokens that are
alike.
-/
namespace TemplateMarkup.Markup

open Cursor TemplateMarkup.Markup.Tree

/-- What is asked of a token, its bytes, and the place of another token. -/
abbrev Tie := Terminal → Span → (start stop : Cursor) → Prop

namespace Tree

/-- The bytes of a tree without the blanks before it. -/
def span (x : Tree) : Span := ⟨x.info.start.offset, x.info.stop.offset⟩

inductive Alike (tie : Tie) : Tree → Tree → Prop where
  | intro (x x' : Tree) (label : x'.label = x.label) (extra : x'.isExtra = x.isExtra)
      (missing : x'.info.missing = x.info.missing)
      (tied : x.children = [] → ∀ a, x.label = .terminal a →
        tie a x.span x'.info.start x'.info.stop)
      (length : x.children.length = x'.children.length)
      (below : ∀ y y', (y, y') ∈ x.children.zip x'.children → Alike tie y y') : Alike tie x x'

variable {tie : Tie} {x x' : Tree} {xs xs' : List Tree}

namespace Alike

theorem label (alike : Alike tie x x') : x'.label = x.label := by
  cases alike
  assumption

theorem extra (alike : Alike tie x x') : x'.isExtra = x.isExtra := by
  cases alike
  assumption

theorem tied {a : Terminal} (alike : Alike tie x x') (leaf : x.children = [])
    (label : x.label = .terminal a) : tie a x.span x'.info.start x'.info.stop := by
  cases alike with
  | intro _ _ _ _ _ tied => exact tied leaf a label

theorem children (alike : Alike tie x x') : List.Forall₂ (Alike tie) x.children x'.children := by
  cases alike with
  | intro _ _ _ _ _ _ length below =>
    exact List.forall₂_iff_zip.mpr ⟨length, fun pair => below _ _ pair⟩

end Alike

theorem alike_markExtra (extra : Bool) (alike : Alike tie x x') :
    Alike tie (x.markExtra extra) (x'.markExtra extra) := by
  cases alike with
  | intro _ _ label _ missing tied length below =>
    exact .intro _ _ label rfl missing tied length below

theorem alike_build {label : Label} (place place' : Cursor)
    (above : xs = [] → ∀ a, label ≠ .terminal a) (alike : List.Forall₂ (Alike tie) xs xs') :
    Alike tie (build label place xs) (build label place' xs') :=
  .intro _ _ rfl rfl rfl (fun leaf a same => absurd same (above leaf a)) alike.length_eq
    fun _ _ pair => List.forall₂_zip alike pair

theorem alike_extras (alike : List.Forall₂ (Alike tie) xs xs') :
    List.Forall₂ (Alike tie) (xs.takeWhile isExtra) (xs'.takeWhile isExtra) ∧
      List.Forall₂ (Alike tie) (xs.dropWhile isExtra) (xs'.dropWhile isExtra) := by
  induction alike with
  | nil => exact ⟨.nil, .nil⟩
  | cons head tail ih =>
    rw [List.takeWhile_cons, List.takeWhile_cons, List.dropWhile_cons, List.dropWhile_cons, head.extra]
    split
    · exact ⟨.cons head ih.1, ih.2⟩
    · exact ⟨.nil, .cons head tail⟩

theorem alike_splitTrailing (alike : List.Forall₂ (Alike tie) xs xs') :
    List.Forall₂ (Alike tie) (splitTrailing xs).1 (splitTrailing xs').1 ∧
      List.Forall₂ (Alike tie) (splitTrailing xs).2 (splitTrailing xs').2 := by
  rw [splitTrailing_eq, splitTrailing_eq]
  obtain ⟨extras, parts⟩ := alike_extras (List.rel_reverse alike)
  exact ⟨List.rel_reverse parts, List.rel_reverse extras⟩

theorem alike_wholeTree (last : x.isExtra = true) (alike : List.Forall₂ (Alike tie) xs xs')
    (alikeLast : Alike tie x x') :
    Option.Rel (Alike tie) (Reader.wholeTree (xs ++ [x])) (Reader.wholeTree (xs' ++ [x'])) := by
  have reversed := List.rel_reverse (List.rel_append alike (List.Forall₂.cons alikeLast .nil))
  obtain ⟨extras, parts⟩ := alike_extras reversed
  unfold Reader.wholeTree
  dsimp only
  revert parts
  generalize (xs ++ [x]).reverse.dropWhile isExtra = before
  generalize (xs' ++ [x']).reverse.dropWhile isExtra = before'
  intro parts
  cases parts with
  | nil => exact .none
  | cons root rest =>
    dsimp only
    rw [root.label]
    refine .some (alike_build _ _ ?_ ?_)
    · intro none
      simp [last] at none
    · exact List.rel_append (List.rel_append (List.rel_reverse rest) root.children)
        (List.rel_reverse extras)

end Tree

namespace Layer

structure Alike (tie : Tie) (l l' : Layer) : Prop where
  tree : Tree.Alike tie l.tree l'.tree
  state : l'.state = l.state

variable {tie : Tie} {ls ls' : List Layer} {xs xs' : List Tree}

theorem alike_topState (alike : List.Forall₂ (Alike tie) ls ls') : topState ls' = topState ls := by
  cases alike with
  | nil => rfl
  | cons head _ => exact head.state

theorem alike_trees (alike : List.Forall₂ (Alike tie) ls ls') :
    List.Forall₂ (Tree.Alike tie) (trees ls) (trees ls') :=
  List.rel_reverse (List.forall₂_map_left_iff.mpr (List.forall₂_map_right_iff.mpr
    (alike.imp fun _ _ both => both.tree)))

theorem alike_putAll (state : State) (alike : List.Forall₂ (Alike tie) ls ls')
    (trees : List.Forall₂ (Tree.Alike tie) xs xs') :
    List.Forall₂ (Alike tie) (putAll ls state xs) (putAll ls' state xs') := by
  induction trees generalizing ls ls' with
  | nil => exact alike
  | cons head _ ih => exact ih (.cons ⟨head, rfl⟩ alike)

theorem alike_take (count : Nat) (alike : List.Forall₂ (Alike tie) ls ls')
    (above : List.Forall₂ (Tree.Alike tie) xs xs') :
    Option.Rel (fun taken taken' => List.Forall₂ (Tree.Alike tie) taken.1 taken'.1 ∧
      List.Forall₂ (Alike tie) taken.2 taken'.2) (take count ls xs) (take count ls' xs') := by
  induction alike generalizing count xs xs' with
  | nil =>
    cases count with
    | zero => exact .some ⟨above, .nil⟩
    | succ count => exact .none
  | cons head tail ih =>
    cases count with
    | zero => exact .some ⟨above, .cons head tail⟩
    | succ count =>
      rw [take, take, head.tree.extra]
      exact ih _ (.cons head.tree above)

end Layer

namespace Pile

open Layer

structure Alike (tie : Tie) (p p' : Pile) : Prop where
  layers : List.Forall₂ (Layer.Alike tie) p.layers p'.layers
  tags : p'.tags = p.tags
  size : p'.size = p.size

inductive BothCome (tie : Tie) : Outcome → Outcome → Prop where
  | next {q q' : Pile} (alike : Alike tie q q') : BothCome tie (.next q) (.next q')
  | whole {x x' : Option Tree} (alike : Option.Rel (Tree.Alike tie) x x') : BothCome tie (.whole x) (.whole x')
  | fault : BothCome tie .fault .fault

variable {tie : Tie} {t t' : Text} {p p' : Pile} {x x' : Tree}

theorem Alike.state (alike : Alike tie p p') : p'.state = p.state := alike_topState alike.layers

theorem alike_start : Alike tie start start := ⟨.nil, rfl, rfl⟩

theorem alike_shift (next : State) (alike : Alike tie p p') (token : Tree.Alike tie x x')
    (tags : x'.info.tags = x.info.tags) : Alike tie (p.shift x next) (p'.shift x' next) where
  layers := .cons ⟨token, rfl⟩ alike.layers
  tags := by simp only [shift, tags, alike.tags]
  size := by simp only [shift, alike.size]

theorem alike_rebuild {xs xs' : List Tree} {ls ls' : List Layer} (n : Nonterminal)
    (alike : Alike tie p p') (trees : List.Forall₂ (Tree.Alike tie) xs xs')
    (layers : List.Forall₂ (Layer.Alike tie) ls ls') :
    Alike tie (p.rebuild t n xs ls) (p'.rebuild t' n xs' ls') := by
  obtain ⟨parts, extras⟩ := alike_splitTrailing trees
  constructor
  case layers =>
    unfold rebuild
    dsimp only
    rw [alike_topState layers]
    exact alike_putAll _ layers (.cons (alike_build _ _ (fun _ _ => nofun) parts) extras)
  case tags => exact alike.tags
  case size => simp only [rebuild, alike.size, extras.length_eq]

theorem alike_use (fuel : Nat) (alike : Alike tie p p') (token : Tree.Alike tie x x')
    (tags : x'.info.tags = x.info.tags) (last : x.label = .terminal .endOfText → x.isExtra = true) :
    BothCome tie (p.use t x fuel) (p'.use t' x' fuel) := by
  induction fuel generalizing p p' with
  | zero => exact .fault
  | succ fuel ih =>
    rw [use, use, token.label, alike.state]
    split
    · rename_i a label
      split
      · exact .next (alike_shift _ alike (alike_markExtra true token) tags)
      · split
        · exact .fault
        · split
          · rename_i ends
            obtain ⟨-, rfl⟩ : p.state = .finished ∧ a = .endOfText := by simpa using ends
            exact .whole (alike_wholeTree (last label) (alike_trees alike.layers) token)
          · split
            · rename_i n count _
              have taken := alike_take count alike.layers (.nil : List.Forall₂ (Tree.Alike tie) [] [])
              unfold reduce?
              revert taken
              generalize take count p.layers [] = o
              generalize take count p'.layers [] = o'
              intro taken
              cases taken with
              | none => exact .fault
              | some both => exact ih (alike_rebuild n alike both.1 both.2)
            · split
              · exact .next (alike_shift _ alike (alike_markExtra false token) tags)
              · exact .fault
    · exact .fault

/-- The token is one of those given, and its bytes are those of the other one. -/
def listed (xs : List Tree) : Tie := fun a s start stop =>
  s = ⟨start.offset, stop.offset⟩ ∧ ∃ x ∈ xs, x.label = .terminal a ∧ x.span = s

theorem Reads.listed {xs ys : List Tree} (reads : p.Reads t xs x) (among : xs ⊆ ys)
    (alike : Alike (listed ys) p p) : Tree.Alike (Pile.listed ys) x x := by
  have token : ∀ {p : Pile}, p.token t ∈ ys → Tree.Alike (Pile.listed ys) (p.token t) (p.token t) :=
    fun member => .intro _ _ rfl rfl rfl (fun _ _ label => ⟨rfl, _, member, label, rfl⟩) rfl nofun
  have come : ∀ {p : Pile}, p.token t ∈ ys → Alike (Pile.listed ys) p p →
      BothCome (Pile.listed ys) (p.step t) (p.step t) :=
    fun member alike => alike_use _ alike (token member) rfl token_extra
  induction reads with
  | done ends =>
    have come := come (among (by simp)) alike
    rw [ends] at come
    cases come with
    | whole both =>
      cases both with
      | some alike => exact alike
  | more steps _ ih =>
    have come := come (among (by simp)) alike
    rw [steps] at come
    cases come with
    | next alike => exact ih (fun y member => among (List.mem_cons_of_mem _ member)) alike

end Pile

end TemplateMarkup.Markup
