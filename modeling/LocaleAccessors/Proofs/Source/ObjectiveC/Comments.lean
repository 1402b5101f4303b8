import LocaleAccessors.Proofs.Source.ObjectiveC.Phases

/-!
The comments of accessors. Each stands on a line of its own in front of a line of code. A compiler drops
that line alone, unless the comment ends in a backslash: then it drops the line of code with it.
-/

namespace LocaleAccessors.Source.ObjectiveC
open Text (BackslashLast)

theorem toList_comment (a : Accessor) : (comment a).toList =
    "/// Base translation: ".toList ++ (Text.onOneLine a.translation).toList :=
  String.toList_append

theorem isComment_comment (a : Accessor) : IsComment (comment a) where
  slashes := by
    have hmark : "//".toList <+: "/// Base translation: ".toList := by decide
    rw [toList_comment]
    exact hmark.trans (List.prefix_append _ _)
  oneLine := oneLine_comment a

theorem not_isLineBreak_of_mem_comment (a : Accessor) :
    ∀ c ∈ (comment a).toList, ¬ Text.isLineBreak c := by
  have hmark : ∀ c ∈ "/// Base translation: ".toList, ¬ Text.isLineBreak c :=
    Text.forall_mem_of_all (by decide)
  rw [toList_comment, List.forall_mem_append]
  exact ⟨hmark, fun c hc => Text.not_isLineBreak_of_mem_onOneLine hc⟩

theorem endsInBackslash_comment_iff (a : Accessor) :
    EndsInBackslash (comment a) ↔ BackslashLast a.translation.toList := by
  rw [EndsInBackslash, toList_comment, List.getLast?_append, ← Text.getLast?_onOneLine]
  cases (Text.onOneLine a.translation).toList.getLast? with
  | none => decide
  | some c => rfl

/-- The comment of the accessor stands in front of the code. The rest of the text is compiled as if it
stood alone, and of the two lines the code is left, if the comment does not end in a backslash. -/
def Documented (text : String) (a : Accessor) (code : String) : Prop :=
  ∃ front back, text = front ++ (comment a ++ "\n" ++ code ++ "\n" ++ back) ∧
    live text = live front ++
      (" \n" ++ (if EndsInBackslash (comment a) then "" else code ++ "\n") ++ live back)

inductive Documents : List String → List (Accessor × String) → Prop
  | nil : Documents [] []
  | line {line : String} {lines : List String} {found : List (Accessor × String)}
      (h : Whole (line ++ "\n")) (others : Documents lines found) : Documents (line :: lines) found
  | accessor (a : Accessor) {code : String} {lines : List String} {found : List (Accessor × String)}
      (h : Plain code) (others : Documents lines found) :
      Documents (comment a :: code :: lines) ((a, code) :: found)

theorem fileText_comment (a : Accessor) (code : String) (lines : List String) :
    fileText (comment a :: code :: lines) =
      comment a ++ "\n" ++ code ++ "\n" ++ fileText lines := by
  rw [fileText_cons, fileText_cons]
  simp only [String.append_assoc]

section documents
variable {lines others : List String} {found more : List (Accessor × String)} {a : Accessor}
  {code : String}

theorem Documents.append (h : Documents lines found) (hothers : Documents others more) :
    Documents (lines ++ others) (found ++ more) := by
  induction h with
  | nil => exact hothers
  | line hline _ ih => exact .line hline ih
  | accessor a hcode _ ih => exact .accessor a hcode ih

theorem Documented.after {text front : String} (hfront : Whole front) (h : Documented text a code) :
    Documented (front ++ text) a code := by
  obtain ⟨before, back, rfl, hlive⟩ := h
  refine ⟨front ++ before, back, String.append_assoc.symm, ?_⟩
  rw [hfront, hfront before, hlive]
  exact String.append_assoc.symm

theorem Documented.swallowed {text : String} (h : Documented text a code)
    (hend : EndsInBackslash (comment a)) :
    ∃ front back, text = front ++ (comment a ++ "\n" ++ code ++ "\n" ++ back) ∧
      live text = live front ++ (" \n" ++ live back) := by
  obtain ⟨front, back, htext, hlive⟩ := h
  rw [if_pos hend, String.append_empty] at hlive
  exact ⟨front, back, htext, hlive⟩

theorem Documents.documented (h : Documents lines found) (hmem : (a, code) ∈ found) :
    Documented (fileText lines) a code := by
  induction h with
  | nil => cases hmem
  | line hline _ ih =>
    rw [fileText_cons]
    exact (ih hmem).after hline
  | @accessor b other lines found hcode _ ih =>
    have hunit := live_documented (isComment_comment b) hcode
    rw [fileText_comment]
    cases List.mem_cons.mp hmem with
    | inl heq =>
      cases heq
      exact ⟨"", fileText lines, String.empty_append.symm, hunit _⟩
    | inr hmem => exact (ih hmem).after (whole_of_forall hunit)

theorem documents_of_whole (h : ∀ line ∈ lines, Whole (line ++ "\n")) : Documents lines [] := by
  induction lines with
  | nil => exact .nil
  | cons line lines ih =>
    obtain ⟨hline, hlines⟩ := List.forall_mem_cons.mp h
    exact .line hline (ih hlines)

theorem documents_of_plain (h : ∀ line ∈ lines, Plain line) : Documents lines [] :=
  documents_of_whole fun line hline => (h line hline).kept.line

theorem documents_fixed (h : lines ∈ [banner, mark "Imports", mark "Header", mark "Macros"]) :
    Documents lines [] := by
  have hfixed : ∀ lines ∈ [banner, mark "Imports", mark "Header", mark "Macros"], ∀ line ∈ lines,
      Plain line ∨ IsComment line ∧ ¬ EndsInBackslash line := by decide +kernel
  refine documents_of_whole fun line hline => ?_
  cases hfixed lines h line hline with
  | inl hplain => exact hplain.kept.line
  | inr hcomment => exact whole_comment hcomment.1 hcomment.2

theorem documents_spaced {members : List (List String)}
    (h : Documents (members.flatMap (· ++ [""])) found) : Documents (spaced members) found := by
  unfold spaced
  split
  · next hnone =>
    rw [List.isEmpty_iff.mp hnone] at h
    cases h
    exact documents_of_plain (by decide)
  · exact h

theorem documents_members {children : List ChildGetter} {accessors : List Accessor}
    {getter : ChildGetter → List String} {lines : Accessor → List String} {code : Accessor → String}
    (hgetters : ∀ g ∈ children, ∀ line ∈ getter g, Plain line)
    (haccessors : ∀ a ∈ accessors, Documents (lines a) [(a, code a)]) :
    Documents ((children.map getter ++ accessors.map lines).flatMap (· ++ [""]))
      (accessors.map fun a => (a, code a)) := by
  have hempty : Documents [""] [] := documents_of_plain (by decide)
  induction children with
  | nil =>
    induction accessors with
    | nil => exact .nil
    | cons a accessors ih =>
      obtain ⟨ha, haccessors⟩ := List.forall_mem_cons.mp haccessors
      exact (ha.append hempty).append (ih haccessors)
  | cons g children ih =>
    obtain ⟨hg, hgetters⟩ := List.forall_mem_cons.mp hgetters
    exact ((documents_of_plain hg).append hempty).append (ih hgetters)

theorem documents_block {opening : String} {lines closing : List String}
    {found : List (Accessor × String)} (hopening : Plain opening)
    (hclosing : ∀ line ∈ closing, Plain line) (h : Documents lines found) :
    Documents ([opening, ""] ++ lines ++ closing) found := by
  have hfirst : ∀ line ∈ [opening, ""], Plain line := List.forall_mem_cons.mpr ⟨hopening, by decide⟩
  have hblock := ((documents_of_plain hfirst).append h).append (documents_of_plain hclosing)
  rwa [List.nil_append, List.append_nil] at hblock

theorem documents_intercalate {classes : List ClassModel} {block : ClassModel → List String}
    {found : ClassModel → List (Accessor × String)}
    (h : ∀ c ∈ classes, Documents (block c) (found c)) :
    Documents ([""].intercalate (classes.map block)) (classes.flatMap found) := by
  induction classes with
  | nil => exact .nil
  | cons c classes ih =>
    obtain ⟨hc, hclasses⟩ := List.forall_mem_cons.mp h
    have hempty : Documents [""] [] := documents_of_plain (by decide)
    cases classes with
    | nil =>
      rw [List.map_singleton, List.intercalate_singleton, List.flatMap_singleton]
      exact hc
    | cons d classes =>
      have hall := (hc.append hempty).append (ih hclasses)
      rw [List.append_nil] at hall
      rw [List.map_cons, List.map_cons, List.intercalate_cons_cons, ← List.map_cons, List.flatMap_cons]
      exact hall

end documents

end LocaleAccessors.Source.ObjectiveC
