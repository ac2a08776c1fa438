import Mathlib.Data.List.Forall2

/-!
Lists in which each member is looked at: a function that may have no value for some of them, and two lists
whose members are related one by one.
-/
namespace TemplateMarkup

section Partial

variable {α β : Type} {f : α → Option β} {xs : List α} {ys : List β}

theorem mapM_eq_some_iff :
    xs.mapM f = some ys ↔ xs.map f = ys.map some := by
  induction xs generalizing ys with
  | nil => cases ys <;> simp
  | cons x xs ih =>
    rw [List.mapM_cons, List.map_cons]
    constructor
    · intro mapped
      obtain ⟨y, first, mapped⟩ := Option.bind_eq_some_iff.mp mapped
      obtain ⟨zs, later, same⟩ := Option.bind_eq_some_iff.mp mapped
      obtain rfl := Option.some.inj same
      rw [first, ih.mp later, List.map_cons]
    · intro same
      cases ys with
      | nil => cases same
      | cons y ys =>
        obtain ⟨first, later⟩ := List.cons.inj same
        rw [first, ih.mpr later]
        rfl

theorem mem_mapM_iff (mapped : xs.mapM f = some ys) {y : β} :
    y ∈ ys ↔ ∃ x ∈ xs, f x = some y := by
  rw [← List.mem_map, mapM_eq_some_iff.mp mapped]
  simp

/-- A function has values for a list if it has one for each member. -/
theorem mapM_isSome_iff : (xs.mapM f).isSome ↔ ∀ x ∈ xs, (f x).isSome := by
  constructor
  · intro mapped x member
    obtain ⟨ys, mapped⟩ := Option.isSome_iff_exists.mp mapped
    have image : f x ∈ ys.map some := by
      rw [← mapM_eq_some_iff.mp mapped]
      exact List.mem_map_of_mem member
    obtain ⟨y, _, value⟩ := List.mem_map.mp image
    rw [← value, Option.isSome_some]
  · intro each
    induction xs with
    | nil => rfl
    | cons x xs ih =>
      obtain ⟨first, later⟩ := List.forall_mem_cons.mp each
      obtain ⟨y, here⟩ := Option.isSome_iff_exists.mp first
      obtain ⟨ys, rest⟩ := Option.isSome_iff_exists.mp (ih later)
      simp [here, rest]

end Partial

theorem forall₂_of_mem {α β : Type} {R S : α → β → Prop} {xs : List α} {ys : List β}
    (related : List.Forall₂ R xs ys) (further : ∀ x ∈ xs, ∀ y ∈ ys, R x y → S x y) :
    List.Forall₂ S xs ys := by
  refine List.forall₂_iff_zip.mpr ⟨related.length_eq, fun pair => ?_⟩
  obtain ⟨first, second⟩ := List.of_mem_zip pair
  exact further _ first _ second (List.forall₂_zip related pair)

end TemplateMarkup
