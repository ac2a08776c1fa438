import TemplateMarkup.Document.Element
import TemplateMarkup.Proofs.Order

/-!
Attribute maps against the lists of attributes they come from. A map keeps the first attribute of each
name, so a search by name finds in it what it finds in the list, whatever the search accepts: a name as
written or a name up to case. Elements and records therefore answer alike.
-/
namespace TemplateMarkup

namespace AttributeMap

/-- The map holds the first attribute of each name of the list, in the order of the list. -/
structure Reflects (m : AttributeMap) (attributes : List Attribute) : Prop where
  found : ∀ p : Text → Bool, (m.entries.find? fun e => p e.1) =
    (attributes.find? fun a => p a.name).map fun a => (a.name, a.valueText)
  names : FirstOccurrences m.names (attributes.map (·.name))

variable {m : AttributeMap} {attributes : List Attribute}

theorem contains_iff {name : Text} : m.contains name ↔ name ∈ m.names := by
  simp [contains, names]

/-- A name that is there already is found before any attribute that comes later. -/
theorem Reflects.found_known {a : Attribute} (reflects : m.Reflects attributes)
    (known : a.name ∈ m.names) (p : Text → Bool) :
    ((attributes ++ [a]).find? fun a => p a.name) = attributes.find? fun a => p a.name := by
  rw [List.find?_append]
  cases passes : p a.name with
  | false => simp [passes]
  | true =>
    obtain ⟨b, member, same⟩ := List.mem_map.mp ((reflects.names.mem_iff a.name).mp known)
    have hit : (attributes.find? fun a => p a.name).isSome := by
      rw [List.find?_isSome]
      exact ⟨b, member, by rw [same, passes]⟩
    obtain ⟨c, earlier⟩ := Option.isSome_iff_exists.mp hit
    rw [earlier, Option.some_or]

theorem insertFirst_reflects (reflects : m.Reflects attributes) (a : Attribute) :
    (m.insertFirst a.name a.valueText).1.Reflects (attributes ++ [a]) := by
  unfold insertFirst
  split
  · rename_i present
    have known := contains_iff.mp present
    constructor
    · intro p
      rw [reflects.found_known known, reflects.found]
    · rw [List.map_append]
      exact reflects.names.concat_known known
  · rename_i absent
    have new : a.name ∉ m.names := fun known => absent (contains_iff.mpr known)
    constructor
    · intro p
      rw [List.find?_append, List.find?_append, reflects.found, Option.map_or]
      cases passes : p a.name <;> simp [passes]
    · have names := reflects.names.concat_new new
      simpa [AttributeMap.names] using names

theorem foldl_reflects (reflects : m.Reflects attributes) (more : List Attribute) :
    (more.foldl (fun m a => (m.insertFirst a.name a.valueText).1) m).Reflects (attributes ++ more) := by
  induction more generalizing m attributes with
  | nil => simpa using reflects
  | cons a more ih =>
    have rest := ih (insertFirst_reflects reflects a)
    rw [List.append_assoc, List.singleton_append] at rest
    exact rest

theorem ofAttributes_reflects (attributes : List Attribute) :
    (ofAttributes attributes).Reflects attributes := by
  have empty : ({} : AttributeMap).Reflects [] := ⟨fun _ => rfl, FirstOccurrences.nil⟩
  exact foldl_reflects empty attributes

/-- Both searches of a lookup, by the name as written and up to case, end at the same attribute. -/
theorem Reflects.get?_eq (reflects : m.Reflects attributes) (name : Text) :
    m.get? name = (Attribute.find? attributes name).map (·.valueText) := by
  unfold get? Attribute.find?
  simp only [Option.orElse_eq_orElse, Option.orElse_eq_or, Option.map_or]
  rw [reflects.found (· == name), reflects.found (Text.equalsFold · name)]
  simp only [Option.map_map]
  rfl

end AttributeMap

namespace Document

/-- An element answers for its attributes as its record does, and lists their names in the order in
which they first appear in the tag. -/
theorem element_attributes_agree (d : Document) {i : Nat} {r : Record} (found : d.record? i = some r) :
    ∃ e, d.element? i = some e ∧ (∀ name, e.attributes.get? name = r.attributeValue? name) ∧
      e.attributes.names.Nodup ∧ FirstOccurrences e.attributes.names (r.attributes.map (·.name)) ∧
      e.id = e.attributes.get? "id".toList ∧ e.classes = e.attributes.get? "class".toList := by
  have reflects := AttributeMap.ofAttributes_reflects r.attributes
  have lookup : ∀ name, (AttributeMap.ofAttributes r.attributes).get? name = r.attributeValue? name :=
    reflects.get?_eq
  refine ⟨_, by rw [element?, elementFrom, found, Option.map_some], lookup, ?_, reflects.names, ?_, ?_⟩
  · exact reflects.names.nodup
  · exact (lookup _).symm
  · exact (lookup _).symm

/-- A tag with an attribute given twice and names that differ only in case. -/
def mixedCaseTag : Text := "<p ID=a id=b Id=c CLASS=d id=e>".toList

theorem mixedCaseTag_attributes_agree :
    ∃ r e, (read mixedCaseTag).record? 0 = some r ∧ (read mixedCaseTag).element? 0 = some e ∧
      FirstOccurrences e.attributes.names
        ["ID".toList, "id".toList, "Id".toList, "CLASS".toList, "id".toList] ∧
      e.attributes.get? "Id".toList = some "c".toList ∧
      e.attributes.get? "iD".toList = some "a".toList ∧ e.id = some "b".toList ∧
      e.classes = some "d".toList := by
  have view : ((read mixedCaseTag).record? 0).map (fun r => (r.attributes.map (·.name),
      ["Id", "iD", "id", "class"].map fun name => r.attributeValue? name.toList)) =
      some (["ID", "id", "Id", "CLASS", "id"].map String.toList,
        ["c", "a", "b", "d"].map fun value => some value.toList) := by decide +kernel
  obtain ⟨r, found, same⟩ := Option.map_eq_some_iff.mp view
  obtain ⟨names, values⟩ := Prod.mk.inj same
  simp only [List.map_cons, List.map_nil, List.cons.injEq, and_true] at names values
  obtain ⟨e, element, lookup, _, firsts, id, classes⟩ :=
    element_attributes_agree (read mixedCaseTag) found
  refine ⟨r, e, found, element, ?_, ?_, ?_, ?_, ?_⟩
  · exact names ▸ firsts
  · rw [lookup, values.1]
  · rw [lookup, values.2.1]
  · rw [id, lookup, values.2.2.1]
  · rw [classes, lookup, values.2.2.2]

end Document

end TemplateMarkup
