import LocaleAccessors.Proofs.Source.ObjectiveC.Blocks

/-!
Whole files. A header holds the blocks of all classes and no other. So does an implementation, unless
the name of the header that it imports has a line that begins a block.
-/

namespace LocaleAccessors.Source.ObjectiveC
open Text (IsWord isWordChar)

section outside
variable {ending keyword : String}

theorem skipped_of_head {text : String} (h : OneLine text) (hne : keyword ≠ "")
    (hhead : keyword.toList.head? ≠ text.toList.head?) :
    ∀ line ∈ linesOf text, opening? keyword line = none := by
  intro line hline
  rw [linesOf_of_oneLine h, List.mem_singleton] at hline
  rw [hline, opening?, after?_of_head hne hhead]
  rfl

theorem skipped_empty (hne : keyword ≠ "") : ∀ line ∈ linesOf "", opening? keyword line = none := by
  refine skipped_of_head (by decide) hne fun hhead => hne ?_
  rw [String.toList_empty, List.head?_nil, List.head?_eq_none_iff] at hhead
  exact String.toList_eq_nil_iff.mp hhead

theorem holds_empty (hne : keyword ≠ "") : Holds keyword ending [""] [] :=
  holds_skipped (List.forall_mem_singleton.mpr (skipped_empty hne))

theorem readBlocks_fileText {texts : List String} {found : List Block}
    (h : Holds keyword ending texts found) (hne : keyword ≠ "") :
    readBlocks keyword ending none (linesOf (fileText texts)) = some found := by
  have hend : readBlocks keyword ending none [[]] = some [] := by
    rw [readBlocks]
    simp only [skipped_empty hne [] List.mem_cons_self]
    rfl
  rw [linesOf_fileText, h, hend, Option.map_some, List.append_nil]

theorem holds_fixed (hkeyword : keyword ∈ ["@interface ", "@implementation "]) {texts : List String}
    (htexts : texts ∈ [banner, mark "Imports", mark "Header", mark "Macros"]) :
    Holds keyword ending texts [] := by
  have hfixed : ∀ keyword ∈ ["@interface ", "@implementation "],
      ∀ texts ∈ [banner, mark "Imports", mark "Header", mark "Macros"], ∀ text ∈ texts,
      ∀ line ∈ linesOf text, opening? keyword line = none := by
    decide +kernel
  exact holds_skipped (hfixed keyword hkeyword texts htexts)

end outside

/-! The header. -/

theorem holds_interface {superclass : String} (hsuper : IsWord superclass) {c : ClassModel}
    (h : c.Worded) : Holds "@interface " ";" (interface superclass c) [blockOf c] := by
  have honeLine : OneLine ("@interface " ++ c.name ++ " : " ++ superclass) :=
    ((OneLine.append (by decide) (oneLine_of_isWord h.name)).append (by decide)).append
      (oneLine_of_isWord hsuper)
  have hopening : opening? "@interface " ("@interface " ++ c.name ++ " : " ++ superclass).toList =
      some c.name := by
    have hname := readName_before h.name " : " (by decide) superclass.toList
    simp only [String.toList_append, List.append_assoc]
    rw [opening?, after?_append, Option.bind_some, hname]
    rfl
  unfold interface
  exact holds_block honeLine hopening ((brings_silent says_empty).append (brings_interface h))

theorem isWord_superclass {o : Options} (h : o.fault? = none) :
    IsWord ((superclass o).getD "NSObject") := by
  rw [superclass]
  cases hsuper : o.superclass.filter (· ≠ "") with
  | none => decide
  | some name =>
    exact Options.isWord_superclass h name (Option.filter_eq_some_iff.mp hsuper).1

theorem skipped_headerImports {o : Options} (h : o.fault? = none) :
    ∀ text ∈ headerImports o, ∀ line ∈ linesOf text, opening? "@interface " line = none := by
  rw [headerImports, List.forall_mem_cons]
  refine ⟨by decide, ?_⟩
  intro text htext
  obtain ⟨name, hname, rfl⟩ := List.mem_map.mp htext
  have hword : IsWord name := by
    have hsuper := isWord_superclass h
    rwa [Option.mem_toList.mp hname] at hsuper
  have honeLine : OneLine ("#import \"" ++ name ++ ".h\"") :=
    (OneLine.append (by decide) (oneLine_of_isWord hword)).append (by decide)
  refine skipped_of_head honeLine (by decide) ?_
  simp

theorem oneLine_headD {names : List String} (h : ∀ name ∈ names, OneLine name) :
    OneLine (names.headD "") := by
  cases names with
  | nil => decide
  | cons name names => exact h name List.mem_cons_self

theorem holds_shortcut {root : Namespace} (hroot : IsWord root.name)
    (hnames : ∀ name ∈ (classesOf root).names, IsWord name) :
    Holds "@interface " ";" [
      "// Make localization to be easily accessible",
      "#define " ++ root.name ++ " [" ++ (classesOf root).names.headD "" ++ " sharedInstance]"]
      [] := by
  have hclass : OneLine ((classesOf root).names.headD "") :=
    oneLine_headD fun name hname => oneLine_of_isWord (hnames name hname)
  have hmacro : OneLine ("#define " ++ root.name ++ " [" ++ (classesOf root).names.headD "" ++
      " sharedInstance]") :=
    (((OneLine.append (by decide) (oneLine_of_isWord hroot)).append (by decide)).append
      hclass).append (by decide)
  refine holds_skipped ?_
  rw [List.forall_mem_cons, List.forall_mem_singleton]
  refine ⟨by decide, skipped_of_head hmacro (by decide) ?_⟩
  simp

theorem declared_header {o : Options} {root : Namespace} (h : o.fault? = none)
    (hroot : IsWord root.name) (hnames : ∀ name ∈ (classesOf root).names, IsWord name)
    (hclasses : ∀ c ∈ (classesOf root).models true, c.Worded) :
    declared (header o root) = some (((classesOf root).models true).map blockOf) := by
  have hfront : Holds "@interface " ";"
      (banner ++ mark "Imports" ++ headerImports o ++ mark "Header") [] :=
    (((holds_fixed (by decide) (by decide)).append (holds_fixed (by decide) (by decide))).append
      (holds_skipped (skipped_headerImports h))).append (holds_fixed (by decide) (by decide))
  have hblocks : Holds "@interface " ";" ([""].intercalate
      (((classesOf root).models true).map (interface ((superclass o).getD "NSObject"))))
      (((classesOf root).models true).map blockOf) :=
    holds_intercalate (holds_empty (by decide)) fun c hc =>
      holds_interface (isWord_superclass h) (hclasses c hc)
  have hmacros : Holds "@interface " ";" (mark "Macros") [] :=
    holds_fixed (by decide) (by decide)
  have hall := ((hfront.append hblocks).append hmacros).append (holds_shortcut hroot hnames)
  rw [List.nil_append, List.append_nil, List.append_nil] at hall
  unfold declared header
  exact readBlocks_fileText hall (by decide)

/-! The implementation. -/

theorem holds_implementation (table : Option String) {c : ClassModel} (h : c.Worded) :
    Holds "@implementation " " \x7b" (implementation table c) [blockOf c] := by
  have honeLine : OneLine ("@implementation " ++ c.name) :=
    OneLine.append (by decide) (oneLine_of_isWord h.name)
  have hopening : opening? "@implementation " ("@implementation " ++ c.name).toList =
      some c.name := by
    have hend : ∀ d ∈ ([] : List Char).head?, ¬ isWordChar d := by
      intro d hd
      cases hd
    have hname := readName_append h.name hend
    rw [List.append_nil] at hname
    rw [String.toList_append, opening?, after?_append, Option.bind_some, hname]
    rfl
  have hblock : Holds "@implementation " " \x7b" _ [blockOf c] :=
    holds_block honeLine hopening
      ((brings_silent says_empty).append (brings_implementation table h))
  have hspaced := hblock.append (holds_empty (by decide))
  rw [List.append_nil, List.cons_append, List.append_assoc] at hspaced
  exact hspaced

/-- No line of the name, after its first one, begins a block. -/
def BringsNoBlock (name : String) : Prop :=
  ∀ line ∈ (linesOf name).tail, ¬ "@implementation ".toList <+: line

theorem bringsNoBlock_of_oneLine {name : String} (h : OneLine name) : BringsNoBlock name := by
  intro line hline
  rw [linesOf_of_oneLine h] at hline
  cases hline

theorem not_prefix_append {line : List Char} (h : ¬ "@implementation ".toList <+: line) :
    ¬ "@implementation ".toList <+: line ++ ".h\"".toList := by
  intro hprefix
  cases List.prefix_or_prefix_of_prefix hprefix (List.prefix_append line _) with
  | inl hline => exact h hline
  | inr hline =>
    obtain ⟨rest, heq⟩ := hline
    rw [← heq, List.prefix_append_right_inj] at hprefix
    cases rest with
    | nil =>
      rw [List.append_nil] at heq
      exact h (heq ▸ List.prefix_rfl)
    | cons c rest =>
      have hdot : c = '.' := (List.cons_prefix_cons.mp hprefix).1
      have hmem : '.' ∈ "@implementation ".toList := by
        rw [← heq, hdot]
        simp
      revert hmem
      decide

theorem not_prefix_of_append {lines olds : List (List Char)}
    (hlines : List.Forall₂ (fun line old => line = old ∨ line = old ++ ".h\"".toList) lines olds)
    (h : ∀ old ∈ olds, ¬ "@implementation ".toList <+: old) :
    ∀ line ∈ lines, ¬ "@implementation ".toList <+: line := by
  induction hlines with
  | nil =>
    intro line hline
    cases hline
  | cons hline _ ih =>
    rw [List.forall_mem_cons] at h ⊢
    refine ⟨?_, ih h.2⟩
    obtain rfl | rfl := hline
    · exact h.1
    · exact not_prefix_append h.1

theorem skipped_import {name : String} (h : BringsNoBlock name) :
    ∀ line ∈ linesOf ("#import \"" ++ name ++ ".h\""),
      opening? "@implementation " line = none := by
  have hlines := linesOf_append_right (show OneLine ".h\"" by decide) name
  rw [String.append_assoc, linesOf_append (by decide)]
  unfold BringsNoBlock at h
  generalize linesOf (name ++ ".h\"") = lines at hlines
  generalize linesOf name = olds at hlines h
  cases hlines with
  | nil =>
    intro line hline
    cases hline
  | cons _ hlines =>
    rw [List.modifyHead_cons, List.forall_mem_cons]
    refine ⟨?_, ?_⟩
    · rw [opening?, after?_of_head (by decide)]
      · rfl
      · simp
    · rw [List.tail_cons] at h
      intro line hline
      rw [opening?, after?_of_not_prefix (not_prefix_of_append hlines h line hline)]
      rfl

theorem defined_implementation {o : Options} {root : Namespace} (h : BringsNoBlock o.importedName)
    (hclasses : ∀ c ∈ (classesOf root).models true, c.Worded) :
    defined (implementationFile o root) = some (((classesOf root).models true).map blockOf) := by
  have himport : Holds "@implementation " " \x7b" ["#import \"" ++ o.importedName ++ ".h\""] [] :=
    holds_skipped (List.forall_mem_singleton.mpr (skipped_import h))
  have hfront : Holds "@implementation " " \x7b"
      (banner ++ mark "Imports" ++ ["#import \"" ++ o.importedName ++ ".h\""] ++ mark "Header")
      [] :=
    (((holds_fixed (by decide) (by decide)).append (holds_fixed (by decide) (by decide))).append
      himport).append (holds_fixed (by decide) (by decide))
  have hblocks : Holds "@implementation " " \x7b" ([""].intercalate
      (((classesOf root).models true).map (implementation o.tableName)))
      (((classesOf root).models true).map blockOf) :=
    holds_intercalate (holds_empty (by decide)) fun c hc =>
      holds_implementation o.tableName (hclasses c hc)
  unfold defined implementationFile
  exact readBlocks_fileText (hfront.append hblocks) (by decide)

end LocaleAccessors.Source.ObjectiveC
