import LocaleAccessors.Proofs.Name.Word
import LocaleAccessors.Proofs.Namespace.Names
import LocaleAccessors.Proofs.Result
import LocaleAccessors.Proofs.Text.Lines

/-!
The names that the namespaces of a tree bring into the code are words: those of namespaces and
accessors and those of parameters.
-/

namespace LocaleAccessors
open Format (Argument Slot inferText nameSlots)
open Key (Tree)
open Name (Rules isWord_distinctName isWord_identifier isWord_suffixed)
open Text (IsWord isWordChar)

namespace Format
variable {base : String} {bases names : List String}

theorem isWord_label (r : Roles) : IsWord r.label := by
  unfold Roles.label
  split_ifs <;> decide

theorem isWord_baseName (slot : Slot) (groupCount : Nat) : IsWord (slot.baseName groupCount) := by
  refine (isWord_label slot.roles).append ?_
  have hjoint : ∀ c ∈ "_".toList, isWordChar c := Text.forall_mem_of_all (by decide)
  split
  · intro c hc
    rw [String.toList_intercalate] at hc
    cases Text.mem_of_mem_intercalate hc with
    | inl hc => exact hjoint c hc
    | inr hc =>
      obtain ⟨part, hpart, hc⟩ := hc
      rw [List.map_map] at hpart
      obtain ⟨n, -, rfl⟩ := List.mem_map.mp hpart
      exact Text.isWordChar_of_mem_toString n c hc
  · intro c hc
    cases hc

theorem isWord_of_mem_nameSlots {position : Nat} {taken : List String}
    (h : ∀ base ∈ names, IsWord base) {name : String}
    (hname : name ∈ nameSlots bases position taken names) : IsWord name := by
  induction names generalizing position taken with
  | nil => cases hname
  | cons base names ih =>
    obtain ⟨hbase, hnames⟩ := List.forall_mem_cons.mp h
    cases List.mem_cons.mp hname with
    | inl heq =>
      rw [heq]
      split
      · exact isWord_distinctName (isWord_suffixed hbase position) taken
      · exact hbase
    | inr hmem => exact ih hnames hmem

theorem name_mem_of_mem_argumentsFrom {position : Nat} {slots : List Slot} {a : Argument}
    (h : a ∈ argumentsFrom position slots names) : a.name ∈ names := by
  induction slots generalizing position names with
  | nil => cases h
  | cons slot slots ih =>
    cases names with
    | nil => cases h
    | cons name names =>
      cases List.mem_cons.mp h with
      | inl heq =>
        rw [heq]
        exact List.mem_cons_self
      | inr hmem => exact List.mem_cons_of_mem name (ih hmem)

theorem isWord_of_inferText {text : String} {arguments : List Argument}
    (h : inferText text = .ok arguments) : ∀ a ∈ arguments, IsWord a.name := by
  intro a ha
  obtain ⟨found, -, hinfer⟩ := bind_eq_ok_iff.mp h
  obtain ⟨⟨slots, groupCount⟩, -, heq⟩ := bind_eq_ok_iff.mp hinfer
  cases heq
  refine isWord_of_mem_nameSlots ?_ (name_mem_of_mem_argumentsFrom ha)
  rw [List.forall_mem_map]
  exact fun slot _ => isWord_baseName slot groupCount

end Format

structure Accessor.Worded (a : Accessor) : Prop where
  name : IsWord a.name
  parameters : ∀ x ∈ a.arguments, IsWord x.name

def Namespaces.Worded : Namespaces → Prop
  | .nil => True
  | .cons name accessors inner siblings =>
    IsWord name ∧ (∀ a ∈ accessors, a.Worded) ∧ inner.Worded ∧ siblings.Worded

section naming
variable {rules : Rules} {taken : List String} {tree : Tree}

theorem worded_of_mem_accessorsOf {a : Accessor} (h : a ∈ accessorsOf rules tree) : a.Worded := by
  have hname : a.name ∈ (namedLeaves rules [] tree).map Prod.fst :=
    (accessorsOf_names_sublist rules tree).subset (List.mem_map_of_mem h)
  obtain ⟨⟨name, entry⟩, -, heq⟩ := List.mem_filterMap.mp h
  obtain ⟨-, segment, others, hsegment⟩ := mem_namedLeaves_names hname
  refine ⟨?_, ?_⟩
  · rw [hsegment]
    exact isWord_distinctName (isWord_identifier rules segment) others
  · dsimp only at heq
    unfold Accessor.ofEntry? at heq
    split at heq
    · next arguments harguments =>
      cases heq
      exact Format.isWord_of_inferText harguments
    · cases heq

theorem worded_ofGroups (rules : Rules) (taken : List String) (tree : Tree) :
    (Namespaces.ofGroups rules taken tree).Worded := by
  induction tree generalizing taken with
  | nil => trivial
  | leaf segment entry siblings ih => exact ih taken
  | group segment children siblings ihchildren ihsiblings =>
    refine ⟨?_, fun a ha => worded_of_mem_accessorsOf ha, ihchildren _, ihsiblings _⟩
    exact isWord_distinctName (isWord_identifier rules segment) taken

end naming

end LocaleAccessors
