import LocaleAccessors.Proofs.Namespace.Failures
import LocaleAccessors.Proofs.Source.ObjectiveC.Agreement
import LocaleAccessors.Proofs.Source.ObjectiveC.Comments

/-!
What stands behind the comments. Headers and implementations have the comment of each accessor in front
of its declaration and of the first line of its definition, which a compiler reads unless the translation
ends in a backslash. All other lines of code are kept as they are written.
-/

namespace LocaleAccessors.Source.ObjectiveC
open Format (ValueType inferText)
open Text (BackslashLast IsWord)

/-! Lines of code. -/

section code
variable {a : Accessor}

theorem plain_signature (h : a.Worded) : Plain (signature a) := by
  have hname := plain_of_isWord h.name
  unfold signature
  split
  · exact Plain.append (by decide) hname
  · have htypes : Plain (commas (a.arguments.map (typeName ·.type))) := by
      refine plain_commas ?_
      rw [List.forall_mem_map]
      exact fun x _ => plain_typeName x.type
    exact ((Plain.append (by decide) htypes).append (by decide)).append hname

theorem plain_getterSignature {g : ChildGetter} (h : IsWord g.name ∧ IsWord g.className) :
    Plain (getterSignature g) :=
  ((Plain.append (by decide) (plain_of_isWord h.2)).append (by decide)).append (plain_of_isWord h.1)

theorem plain_indent (level : Nat) {text : String} (h : Plain text) : Plain (indent level text) := by
  refine Plain.append (fun c hc => ?_) h
  rw [String.toList_ofList] at hc
  rw [List.eq_of_mem_replicate hc]
  decide

theorem plain_sharedSignature {className : String} (h : IsWord className) :
    Plain (sharedSignature className) :=
  (Plain.append (by decide) (plain_of_isWord h)).append (by decide)

/-! In a header. -/

theorem documents_interface {superclass : String} (hsuper : IsWord superclass) {c : ClassModel}
    (h : c.Worded) :
    Documents (interface superclass c) (c.accessors.map fun a => (a, signature a ++ ";")) := by
  have hopening : Plain ("@interface " ++ c.name ++ " : " ++ superclass) :=
    ((Plain.append (by decide) (plain_of_isWord h.name)).append (by decide)).append
      (plain_of_isWord hsuper)
  have hgetters : ∀ g ∈ c.children, ∀ line ∈ [getterSignature g ++ ";"], Plain line := by
    intro g hg
    rw [List.forall_mem_singleton]
    exact (plain_getterSignature (h.children g hg)).append (by decide)
  have haccessors : ∀ a ∈ c.accessors, Documents (accessorDeclaration a) [(a, signature a ++ ";")] :=
    fun a ha => .accessor a ((plain_signature (h.accessors a ha)).append (by decide)) .nil
  have hshared : ∀ line ∈ (if c.isRoot then [[sharedSignature c.name ++ ";"]] else []).flatMap
      (· ++ [""]), Plain line := by
    split
    · exact List.forall_mem_cons.mpr ⟨(plain_sharedSignature h.name).append (by decide), by decide⟩
    · exact List.forall_mem_nil _
  have hmembers := (documents_members hgetters haccessors).append (documents_of_plain hshared)
  rw [← List.flatMap_append, List.append_nil] at hmembers
  exact documents_block hopening (by decide) (documents_spaced hmembers)

/-- A file's name between the quotes of an import, as C has it. -/
def IsFileName (name : String) : Prop :=
  ∀ c ∈ name.toList, c ≠ '"' ∧ c ≠ '\n'

theorem isFileName_of_isWord {name : String} (h : IsWord name) : IsFileName name := by
  intro c hc
  have hplain := plain_of_isWord h c hc
  simp only [List.mem_cons, not_or] at hplain
  exact ⟨hplain.2.1, hplain.2.2.2.2.1⟩

theorem documents_import {name : String} (h : IsFileName name) :
    Documents ["#import \"" ++ name ++ ".h\""] [] := by
  have hbody : Inside (name ++ ".h").toList := by
    rw [String.toList_append]
    exact (inside_fileName h).1
  have honeLine : OneLine (name ++ ".h") :=
    OneLine.append (fun hmem => (h _ hmem).2 rfl) (by decide)
  have hquoted := (Plain.kept (show Plain "#import " by decide)).append (kept_quoted honeLine hbody)
  have hopening : "#import \"" = "#import " ++ "\"" := by decide
  have hclosing : ".h\"" = ".h" ++ "\"" := by decide
  refine documents_of_whole (List.forall_mem_singleton.mpr (Kept.line ?_))
  rw [hopening, hclosing]
  simpa only [String.append_assoc] using hquoted

theorem documents_headerImports {o : Options} (h : o.fault? = none) :
    Documents (headerImports o) [] := by
  have hfoundation : Plain "@import Foundation;" := by decide
  have hsuper := isWord_superclass h
  unfold headerImports
  refine .line hfoundation.kept.line ?_
  cases hname : superclass o with
  | none => exact .nil
  | some name =>
    rw [hname] at hsuper
    exact documents_import (isFileName_of_isWord hsuper)

theorem documents_shortcut {root : Namespace} (hroot : IsWord root.name)
    (hnames : ∀ name ∈ (classesOf root).names, IsWord name) :
    Documents [
      "// Make localization to be easily accessible",
      "#define " ++ root.name ++ " [" ++ (classesOf root).names.headD "" ++ " sharedInstance]"]
      [] := by
  have hclass : Plain ((classesOf root).names.headD "") := by
    cases hlist : (classesOf root).names with
    | nil => decide
    | cons name names => exact plain_of_isWord (hnames name (hlist ▸ List.mem_cons_self))
  have hmacro : Plain ("#define " ++ root.name ++ " [" ++ (classesOf root).names.headD "" ++
      " sharedInstance]") :=
    (((Plain.append (by decide) (plain_of_isWord hroot)).append (by decide)).append hclass).append
      (by decide)
  exact .line (whole_comment (by decide) (by decide)) (.line hmacro.kept.line .nil)

section files
variable {o : Options} {root : Namespace} {c : ClassModel}

theorem documented_header (h : o.fault? = none) (hroot : IsWord root.name)
    (hnames : ∀ name ∈ (classesOf root).names, IsWord name)
    (hclasses : ∀ c ∈ (classesOf root).models true, c.Worded)
    (hc : c ∈ (classesOf root).models true) (ha : a ∈ c.accessors) :
    Documented (header o root) a (signature a ++ ";") := by
  have hfront : Documents (banner ++ mark "Imports" ++ headerImports o ++ mark "Header") [] :=
    (((documents_fixed (by decide)).append (documents_fixed (by decide))).append
      (documents_headerImports h)).append (documents_fixed (by decide))
  have hblocks := documents_intercalate fun c hc =>
    documents_interface (isWord_superclass h) (hclasses c hc)
  have hmacros : Documents (mark "Macros") [] := documents_fixed (by decide)
  have hall := ((hfront.append hblocks).append hmacros).append (documents_shortcut hroot hnames)
  rw [List.nil_append, List.append_nil, List.append_nil] at hall
  unfold header
  exact hall.documented (List.mem_flatMap.mpr ⟨c, hc, List.mem_map_of_mem ha⟩)

end files

/-! In an implementation. -/

theorem kept_lookup (table : Option String) (key : String) : Kept (lookup table key) := by
  have htable : Kept ((table.map quote).getD "nil") := by
    cases table with
    | none => exact Plain.kept (by decide)
    | some name => exact kept_quote name
  unfold lookup
  exact ((((Plain.kept (by decide)).append (kept_quote key)).append (Plain.kept (by decide))).append
    htable).append (Plain.kept (by decide))

theorem kept_indent (level : Nat) {text : String} (h : Kept text) : Kept (indent level text) := by
  have hblanks : Plain (indent level "") := plain_indent level (by decide)
  rw [indent, String.append_empty] at hblanks
  exact hblanks.kept.append h

theorem documents_accessorDefinition (table : Option String) (h : a.Worded) :
    Documents (accessorDefinition table a) [(a, signature a ++ " \x7b")] := by
  have hcode : Plain (signature a ++ " \x7b") := (plain_signature h).append (by decide)
  have hlookup := kept_lookup table a.key
  have hbrace : Kept "\x7d" := Plain.kept (by decide)
  unfold accessorDefinition
  split
  · have hreturn : Kept ("return " ++ lookup table a.key ++ ";") :=
      ((Plain.kept (by decide)).append hlookup).append (Plain.kept (by decide))
    refine Documents.accessor a hcode (documents_of_whole ?_)
    rw [List.forall_mem_cons, List.forall_mem_singleton]
    exact ⟨(kept_indent 1 hreturn).line, hbrace.line⟩
  · have hblock : Kept ("return ^(" ++
        commas (a.arguments.map fun x => typeName x.type ++ " " ++ x.name) ++ ") \x7b") :=
      Plain.kept ((Plain.append (by decide) (plain_parameters h)).append (by decide))
    have hreturn : Kept ("return [NSString stringWithFormat: " ++ lookup table a.key ++ ", " ++
        commas (parameterNames a) ++ "];") :=
      ((((Plain.kept (by decide)).append hlookup).append (Plain.kept (by decide))).append
        (plain_arguments h).kept).append (Plain.kept (by decide))
    have hclose : Kept "\x7d;" := Plain.kept (by decide)
    refine Documents.accessor a hcode (documents_of_whole ?_)
    rw [List.forall_mem_cons, List.forall_mem_cons, List.forall_mem_cons, List.forall_mem_singleton]
    exact ⟨(kept_indent 1 hblock).line, (kept_indent 2 hreturn).line, (kept_indent 1 hclose).line,
      hbrace.line⟩

theorem plain_getterDefinition {g : ChildGetter} (h : IsWord g.name ∧ IsWord g.className) :
    ∀ line ∈ getterDefinition g, Plain line := by
  have hreturn : Plain ("return [" ++ g.className ++ " new];") :=
    (Plain.append (by decide) (plain_of_isWord h.2)).append (by decide)
  unfold getterDefinition
  rw [List.forall_mem_cons, List.forall_mem_cons]
  exact ⟨(plain_getterSignature h).append (by decide), plain_indent 1 hreturn, by decide⟩

theorem plain_sharedDefinition {className : String} (h : IsWord className) :
    ∀ line ∈ sharedDefinition className, Plain line := by
  have hname := plain_of_isWord h
  have hinstance : Plain ("static " ++ className ++ " *instance;") :=
    (Plain.append (by decide) hname).append (by decide)
  have halloc : Plain ("instance = [[" ++ className ++ " alloc] init];") :=
    (Plain.append (by decide) hname).append (by decide)
  unfold sharedDefinition
  simp only [List.forall_mem_cons]
  refine ⟨(plain_sharedSignature h).append (by decide), by decide, ?_, plain_indent 1 hinstance, ?_,
    plain_indent 2 halloc, ?_, ?_, by decide⟩
  all_goals exact plain_indent _ (by decide)

theorem documents_implementation (table : Option String) {c : ClassModel} (h : c.Worded) :
    Documents (implementation table c) (c.accessors.map fun a => (a, signature a ++ " \x7b")) := by
  have hopening : Plain ("@implementation " ++ c.name) :=
    Plain.append (by decide) (plain_of_isWord h.name)
  have hgetters : ∀ g ∈ c.children, ∀ line ∈ getterDefinition g, Plain line :=
    fun g hg => plain_getterDefinition (h.children g hg)
  have hmembers := documents_members hgetters fun a ha =>
    documents_accessorDefinition table (h.accessors a ha)
  unfold implementation
  refine documents_block hopening (by decide) ?_
  split
  · have hall := hmembers.append (documents_of_plain (plain_sharedDefinition h.name))
    rwa [List.append_nil] at hall
  · exact documents_spaced hmembers

theorem documented_implementation {o : Options} {root : Namespace} (h : IsFileName o.importedName)
    (hclasses : ∀ c ∈ (classesOf root).models true, c.Worded) {c : ClassModel}
    (hc : c ∈ (classesOf root).models true) (ha : a ∈ c.accessors) :
    Documented (implementationFile o root) a (signature a ++ " \x7b") := by
  have hfront : Documents (banner ++ mark "Imports" ++ ["#import \"" ++ o.importedName ++ ".h\""] ++
      mark "Header") [] :=
    (((documents_fixed (by decide)).append (documents_fixed (by decide))).append
      (documents_import h)).append (documents_fixed (by decide))
  have hblocks := documents_intercalate fun c hc =>
    documents_implementation o.tableName (hclasses c hc)
  unfold implementationFile
  exact (hfront.append hblocks).documented (List.mem_flatMap.mpr ⟨c, hc, List.mem_map_of_mem ha⟩)

end code

/-! The leaves of a tree. -/

section render
variable {o : Options} {tree : Key.Tree} {source : Rendered}

theorem exists_inferred {entry : Table.Entry} (h : Failure.ofEntry? entry = none) :
    ∃ arguments, inferred? entry = some (entry, arguments) := by
  unfold Failure.ofEntry? at h
  unfold inferred?
  cases hinferred : inferText entry.value with
  | ok arguments => exact ⟨arguments, rfl⟩
  | error fault =>
    rw [hinferred] at h
    cases h

theorem exists_class {root : Namespace} {e : List String × Namespace} (h : e ∈ root.located) :
    ∃ c ∈ (classesOf root).models true, c.accessors = e.2.accessors := by
  have houtline : (root.name :: e.1, e.2.inner.names, e.2.accessors) ∈
      ((classesOf root).located true).map Classes.outline := by
    rw [map_outline_classesOf]
    exact List.mem_map_of_mem h
  obtain ⟨f, hf, heq⟩ := List.mem_map.mp houtline
  have hmodel := (Classes.models_perm_located true (classesOf root)).mem_iff.mpr
    (List.mem_map_of_mem hf)
  exact ⟨f.2, hmodel, congrArg (·.2.2) heq⟩

theorem exists_accessor (h : failures tree = []) {entry : Table.Entry}
    (hentry : entry ∈ tree.inOrder) :
    ∃ c ∈ (classesOf (namespaceOf o tree)).models true, ∃ a ∈ c.accessors,
      a.key = entry.key ∧ a.translation = entry.value := by
  rw [failures_eq, List.filterMap_eq_nil_iff] at h
  obtain ⟨arguments, hinferred⟩ := exists_inferred (h entry hentry)
  have hmem : (entry, arguments) ∈ allInferred (namespaceOf o tree).located := by
    rw [namespaceOf, inferred_ofTree]
    exact List.mem_filterMap.mpr ⟨entry, hentry, hinferred⟩
  obtain ⟨e, he, haccessor⟩ := List.mem_flatMap.mp hmem
  obtain ⟨a, ha, heq⟩ := List.mem_map.mp haccessor
  obtain ⟨c, hc, haccessors⟩ := exists_class he
  cases heq
  exact ⟨c, hc, a, haccessors ▸ ha, rfl, rfl⟩

theorem documented_of_mem (hfault : o.fault? = none) {c : ClassModel} {a : Accessor}
    (hc : c ∈ (classesOf (namespaceOf o tree)).models true) (ha : a ∈ c.accessors) :
    Documented (header o (namespaceOf o tree)) a (signature a ++ ";") ∧
      (IsFileName o.importedName →
        Documented (implementationFile o (namespaceOf o tree)) a (signature a ++ " \x7b")) := by
  have hworded := worded_namespaceOf tree hfault
  have hnames : ∀ name ∈ (classesOf (namespaceOf o tree)).names, IsWord name :=
    fun name hmem => (isClassName_of_mem_classesOf hworded name hmem).word
  have hclasses : ∀ c ∈ (classesOf (namespaceOf o tree)).models true, c.Worded :=
    worded_classesOf hworded
  constructor
  · exact documented_header hfault (Options.isWord_baseName hfault) hnames hclasses hc ha
  · exact fun hname => documented_implementation hname hclasses hc ha

/-- A translation stays in its comment if and only if it does not end in a backslash, a line break at its
end apart. -/
theorem comment_complete_iff (hobjectiveC : o.language = .objectiveC)
    (h : render o tree = .ok source) :
    ∃ header, source.header = some header ∧ ∀ leaf ∈ tree.leaves, ∃ a : Accessor,
      a.key = leaf.2.key ∧ a.translation = leaf.2.value ∧
      (∀ c ∈ (comment a).toList, ¬ Text.isLineBreak c) ∧
      (EndsInBackslash (comment a) ↔ BackslashLast leaf.2.value.toList) ∧
      Documented header a (signature a ++ ";") ∧
      (IsFileName o.importedName → Documented source.implementation a (signature a ++ " \x7b")) := by
  unfold render at h
  split at h
  · cases h
  · cases h
  · next hfault hfailures =>
    cases h
    simp only [sourceOf, hobjectiveC]
    refine ⟨_, rfl, fun leaf hleaf => ?_⟩
    have hentry : leaf.2 ∈ tree.inOrder := tree.inOrder_perm.mem_iff.mpr (List.mem_map_of_mem hleaf)
    obtain ⟨c, hc, a, ha, hkey, htranslation⟩ := exists_accessor hfailures hentry
    refine ⟨a, hkey, htranslation, not_isLineBreak_of_mem_comment a, ?_, documented_of_mem hfault hc ha⟩
    rw [endsInBackslash_comment_iff, htranslation]

/-- Of two leaves, one ends in a backslash. -/
theorem comment_complete_of_two :
    ∃ source header, render { language := .objectiveC }
        (.leaf "a" ⟨"a", "b\\"⟩ (.leaf "c" ⟨"c", "d"⟩ .nil)) = .ok source ∧
      source.header = some header ∧
      (∃ a : Accessor, a.key = "a" ∧ EndsInBackslash (comment a) ∧
        Documented header a (signature a ++ ";") ∧
        Documented source.implementation a (signature a ++ " \x7b")) ∧
      ∃ a : Accessor, a.key = "c" ∧ ¬ EndsInBackslash (comment a) ∧
        Documented header a (signature a ++ ";") ∧
        Documented source.implementation a (signature a ++ " \x7b") := by
  have hfault : Options.fault? { language := .objectiveC } = none := by decide +kernel
  have hfailures : failures (.leaf "a" ⟨"a", "b\\"⟩ (.leaf "c" ⟨"c", "d"⟩ .nil)) = [] := by
    decide +kernel
  obtain ⟨source, hsource⟩ : ∃ source, render { language := .objectiveC }
      (.leaf "a" ⟨"a", "b\\"⟩ (.leaf "c" ⟨"c", "d"⟩ .nil)) = .ok source :=
    ⟨_, by rw [render, hfault, hfailures]⟩
  have hname : IsFileName (Options.importedName { language := .objectiveC }) :=
    isFileName_of_isWord (by decide)
  obtain ⟨header, hheader, hleaves⟩ := comment_complete_iff rfl hsource
  obtain ⟨a, hkey, -, -, hlast, hdeclared, hdefined⟩ :=
    hleaves (["a"], ⟨"a", "b\\"⟩) List.mem_cons_self
  obtain ⟨b, hother, -, -, hopen, hshown, himplemented⟩ :=
    hleaves (["c"], ⟨"c", "d"⟩) (List.mem_cons_of_mem _ List.mem_cons_self)
  exact ⟨source, header, hsource, hheader,
    ⟨a, hkey, hlast.mpr (by decide), hdeclared, hdefined hname⟩,
    ⟨b, hother, hopen.not.mpr (by decide), hshown, himplemented hname⟩⟩

end render

/-- Of the header and of the implementation a compiler reads all but the comment and the line after it,
which is the declaration and the first line of the definition. -/
theorem backslash_swallows_declaration :
    ∃ source header, render { language := .objectiveC } (.leaf "a" ⟨"a", "b\\"⟩ .nil) = .ok source ∧
      source.header = some header ∧
      (∃ front back,
        header = front ++ ("/// Base translation: b\\\n- (NSString *)a;\n" ++ back) ∧
        live header = live front ++ (" \n" ++ live back)) ∧
      ∃ front back,
        source.implementation =
          front ++ ("/// Base translation: b\\\n- (NSString *)a \x7b\n" ++ back) ∧
        live source.implementation = live front ++ (" \n" ++ live back) := by
  have hfault : Options.fault? { language := .objectiveC } = none := by decide +kernel
  have hfailures : failures (.leaf "a" ⟨"a", "b\\"⟩ .nil) = [] := by decide +kernel
  have hsource : ∀ root, sourceOf { language := .objectiveC } root =
      ⟨.objectiveC, implementationFile { language := .objectiveC } root,
        some (header { language := .objectiveC } root)⟩ :=
    fun _ => rfl
  have hmodels : (classesOf (namespaceOf { language := .objectiveC }
      (.leaf "a" ⟨"a", "b\\"⟩ .nil))).models true =
        [⟨"_Localizations", true, [], [⟨"a", "a", "b\\", []⟩]⟩] := by
    decide +kernel
  have hname : IsFileName (Options.importedName { language := .objectiveC }) :=
    isFileName_of_isWord (by decide)
  have hend : EndsInBackslash (comment ⟨"a", "a", "b\\", []⟩) := by decide
  have hdeclaration : comment ⟨"a", "a", "b\\", []⟩ ++ "\n" ++
      (signature ⟨"a", "a", "b\\", []⟩ ++ ";") ++ "\n" =
        "/// Base translation: b\\\n- (NSString *)a;\n" := by
    decide +kernel
  have hdefinition : comment ⟨"a", "a", "b\\", []⟩ ++ "\n" ++
      (signature ⟨"a", "a", "b\\", []⟩ ++ " \x7b") ++ "\n" =
        "/// Base translation: b\\\n- (NSString *)a \x7b\n" := by
    decide +kernel
  obtain ⟨hdeclared, hdefined⟩ := documented_of_mem hfault (hmodels ▸ List.mem_cons_self)
    List.mem_cons_self
  refine ⟨_, _, by rw [render, hfault, hfailures, hsource], rfl, ?_, ?_⟩
  · rw [← hdeclaration]
    exact hdeclared.swallowed hend
  · dsimp only
    rw [← hdefinition]
    exact (hdefined hname).swallowed hend

end LocaleAccessors.Source.ObjectiveC
