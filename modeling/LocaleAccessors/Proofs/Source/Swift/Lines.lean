import LocaleAccessors.Proofs.Source.Swift.Reader
import LocaleAccessors.Source.Swift

/-!
The lines of a rendered Swift file, each read back. A literal ends where it was closed, whatever text is
in it, and names, types and arguments are words, so no separator is among their characters.
-/

namespace LocaleAccessors.Source.Swift
open Format (ValueType)
open Text (IsWord isWordChar)

/-! The parts of lines. -/

theorem readString_quote (text : String) (rest : List Char) :
    readString ((quote text).toList ++ rest) = some (text, rest) := by
  have hlist : (quote text).toList ++ rest =
      "\"".toList ++ ((escape .swift text).toList ++ '"' :: rest) := by
    simp [quote]
  simp only [hlist, readString, after?_append, readLiteral_escape, Option.bind_eq_bind,
    Option.bind_some, Option.pure_def, String.ofList_toList]

theorem readTable_tableArgument (table : Option String) (rest : List Char) :
    readTable ((tableArgument table).toList ++ ("comment: \"\")".toList ++ rest)) =
      some (table, "comment: \"\")".toList ++ rest) := by
  cases table with
  | none =>
    have hapart : Apart "tableName: " "comment: \"\")" := by decide
    rw [tableArgument, String.toList_empty, List.nil_append, readTable, after?_of_apart hapart]
  | some name =>
    simp only [tableArgument, String.toList_append, List.append_assoc, readTable, after?_append,
      readString_quote, Option.bind_eq_bind, Option.bind_some, Option.pure_def]

theorem readLookup_lookup (table : Option String) (key : String) (rest : List Char) :
    readLookup ((lookup table key).toList ++ rest) = some (⟨key, table⟩, rest) := by
  unfold lookup
  simp only [String.toList_append, List.append_assoc, readLookup, after?_append,
    readString_quote, readTable_tableArgument, Option.bind_eq_bind, Option.bind_some,
    Option.pure_def]

def Parameter.spelling (p : Parameter) : String :=
  "_ " ++ p.name ++ " : " ++ p.type

theorem isWord_typeName (type : ValueType) : IsWord (typeName type) := by
  cases type <;> decide

theorem not_mem_spelling {p : Parameter} {c : Char} (hname : IsWord p.name) (htype : IsWord p.type)
    (hc : ¬ isWordChar c) (hsigns : c ∉ "_ : ".toList) : c ∉ p.spelling.toList := by
  have hfront : ∀ d ∈ "_ ".toList, d ∈ "_ : ".toList := Text.forall_mem_of_all (by decide)
  have hmiddle : ∀ d ∈ " : ".toList, d ∈ "_ : ".toList := Text.forall_mem_of_all (by decide)
  unfold Parameter.spelling
  simp only [String.toList_append, List.mem_append, not_or]
  exact ⟨⟨⟨fun h => hsigns (hfront c h), hname.not_mem hc⟩, fun h => hsigns (hmiddle c h)⟩,
    htype.not_mem hc⟩

theorem readParameter_spelling {p : Parameter} (hname : IsWord p.name) (htype : IsWord p.type) :
    readParameter p.spelling.toList = some p := by
  have hlist : p.spelling.toList =
      "_ ".toList ++ (p.name.toList ++ (" : ".toList ++ (p.type.toList ++ []))) := by
    unfold Parameter.spelling
    simp only [String.toList_append, List.append_assoc, List.append_nil]
  have hend : ∀ c ∈ ([] : List Char).head?, ¬ isWordChar c := by
    intro c hc
    cases hc
  simp only [hlist, readParameter, after?_append, readName_before hname " : " (by decide),
    readName_append htype hend, Option.bind_eq_bind, Option.bind_some, if_true]

theorem readArgument_toList {name : String} (h : IsWord name) :
    readArgument name.toList = some name := by
  have hend : ∀ c ∈ ([] : List Char).head?, ¬ isWordChar c := by
    intro c hc
    cases hc
  have hread := readName_append h hend
  rw [List.append_nil] at hread
  simp only [readArgument, hread, Option.bind_eq_bind, Option.bind_some, if_true]

/-! The lines. -/

structure Says (text : String) (line : Line) : Prop where
  oneLine : OneLine text
  reads : readLine text.toList = some line

theorem Says.indent {text : String} {line : Line} (h : Says text line) (level : Nat) :
    Says (Source.indent level text) line where
  oneLine := oneLine_indent level h.oneLine
  reads := by
    rw [← h.reads, toList_indent, readLine, readLine]
    have hblank : ∀ c ∈ List.replicate (4 * level) ' ', c == ' ' := by
      intro c hc
      rw [List.eq_of_mem_replicate hc]
      rfl
    rw [List.dropWhile_append_of_pos hblank]

theorem dropWhile_blank {text : String} (h : text.toList.head?.any (· != ' ')) (rest : List Char) :
    (text.toList ++ rest).dropWhile (· == ' ') = text.toList ++ rest := by
  cases hcs : text.toList with
  | nil =>
    rw [hcs] at h
    cases h
  | cons c cs =>
    rw [hcs] at h
    have hblank : ¬ c = ' ' := by simpa using h
    simp [hblank]

theorem pairwise_keywords : keywords.Pairwise fun k l => Apart k.1 l.1 := by
  decide

theorem readLine_keyword {text : String} {reader : List Char → Option Line}
    (h : (text, reader) ∈ keywords) (hblank : text.toList.head?.any (· != ' ')) (rest : List Char) :
    readLine (text.toList ++ rest) = reader rest := by
  rw [readLine, dropWhile_blank hblank]
  simp only [keyword?_append pairwise_keywords h]

theorem says_empty : Says "" .silent :=
  ⟨by decide, rfl⟩

theorem says_closing : Says "\x7d" .closing :=
  ⟨by decide, by decide⟩

theorem says_of_slashes {text : String} (h : OneLine text) (hslashes : "//".toList <+: text.toList) :
    Says text .silent where
  oneLine := h
  reads := by
    obtain ⟨rest, heq⟩ := hslashes
    have hmem : ("//", fun _ => some .silent) ∈ keywords := List.mem_cons_self
    rw [← heq, readLine_keyword hmem (by decide)]

theorem says_comment (a : Accessor) : Says (comment a) .silent := by
  refine says_of_slashes (oneLine_comment a) ?_
  unfold comment
  rw [String.toList_append]
  exact List.prefix_append_of_prefix (by decide)

theorem oneLine_quote (text : String) : OneLine (quote text) :=
  (OneLine.append (by decide) (oneLine_escape .swift text)).append (by decide)

theorem oneLine_tableArgument (table : Option String) : OneLine (tableArgument table) := by
  cases table with
  | none => decide
  | some name => exact (OneLine.append (by decide) (oneLine_quote name)).append (by decide)

theorem oneLine_lookup (table : Option String) (key : String) : OneLine (lookup table key) := by
  unfold lookup
  exact (((OneLine.append (by decide) (oneLine_quote key)).append (by decide)).append
    (oneLine_tableArgument table)).append (by decide)

theorem says_opening {name : String} (h : IsWord name) :
    Says ("public struct " ++ name ++ " \x7b") (.opening name) where
  oneLine := (OneLine.append (by decide) (oneLine_of_isWord h)).append (by decide)
  reads := by
    have hread := readName_before h " \x7b" (by decide) []
    simp only [String.toList_append, List.append_assoc]
    rw [List.append_nil] at hread
    have hmem : ("public struct ", readOpening) ∈ keywords := by simp [keywords]
    rw [readLine_keyword hmem (by decide)]
    simp only [readOpening, hread, Option.bind_eq_bind, Option.bind_some, if_true]

theorem says_property {name : String} (h : IsWord name) (table : Option String) (key : String) :
    Says ("public static var " ++ name ++ " : String = " ++ lookup table key)
      (.property name ⟨key, table⟩) where
  oneLine := ((OneLine.append (by decide) (oneLine_of_isWord h)).append (by decide)).append
    (oneLine_lookup table key)
  reads := by
    have hlookup := readLookup_lookup table key []
    rw [List.append_nil] at hlookup
    simp only [String.toList_append, List.append_assoc]
    have hmem : ("public static var ", readProperty) ∈ keywords := by simp [keywords]
    rw [readLine_keyword hmem (by decide)]
    simp only [readProperty, readName_before h " : String = " (by decide), after?_append, hlookup,
      Option.bind_eq_bind, Option.bind_some, if_true]

theorem says_function {name : String} (h : IsWord name) {parameters : List Parameter}
    (hne : parameters ≠ []) (hnames : ∀ p ∈ parameters, IsWord p.name)
    (htypes : ∀ p ∈ parameters, IsWord p.type) :
    Says ("public static func " ++ name ++ "(" ++ commas (parameters.map Parameter.spelling) ++
      ") -> String \x7b") (.function name parameters) where
  oneLine := by
    have hparameters : OneLine (commas (parameters.map Parameter.spelling)) := by
      refine oneLine_commas ?_
      rw [List.forall_mem_map]
      exact fun p hp => not_mem_spelling (hnames p hp) (htypes p hp) (by decide) (by decide)
    exact (((OneLine.append (by decide) (oneLine_of_isWord h)).append (by decide)).append
      hparameters).append (by decide)
  reads := by
    have hlist : readList readParameter ") -> String \x7b"
        ((commas (parameters.map Parameter.spelling)).toList ++ ") -> String \x7b".toList) =
          some parameters := by
      refine readList_commas hne (fun p hp => ⟨⟨?_, ?_, ?_⟩, ?_⟩) (by decide)
      · exact readParameter_spelling (hnames p hp) (htypes p hp)
      · exact not_mem_spelling (hnames p hp) (htypes p hp) (by decide) (by decide)
      · unfold Parameter.spelling
        simp
      · exact not_mem_spelling (hnames p hp) (htypes p hp) (by decide) (by decide)
    simp only [String.toList_append, List.append_assoc]
    have hmem : ("public static func ", readFunction) ∈ keywords := by simp [keywords]
    rw [readLine_keyword hmem (by decide)]
    simp only [readFunction, readName_before h "(" (by decide), after?_append, hlist,
      Option.bind_eq_bind, Option.bind_some, Option.pure_def]

theorem says_result (table : Option String) (key : String) {arguments : List String}
    (hne : arguments ≠ []) (h : ∀ name ∈ arguments, IsWord name) :
    Says ("return String(format: " ++ lookup table key ++ ", " ++ commas arguments ++ ")")
      (.result ⟨key, table⟩ arguments) where
  oneLine := by
    have harguments : OneLine (commas arguments) :=
      oneLine_commas fun name hname => oneLine_of_isWord (h name hname)
    exact (((OneLine.append (by decide) (oneLine_lookup table key)).append (by decide)).append
      harguments).append (by decide)
  reads := by
    have hlist : readList readArgument ")" ((commas arguments).toList ++ ")".toList) =
        some arguments := by
      have hreads : ∀ name ∈ arguments, Readable readArgument id name ∧ ')' ∉ name.toList := by
        intro name hname
        have hword := h name hname
        refine ⟨⟨readArgument_toList hword, hword.not_mem (by decide), fun hblank => ?_⟩,
          hword.not_mem (by decide)⟩
        exact hword.not_mem (by decide) (List.mem_of_head? hblank)
      have hread := readList_commas hne hreads (show ")".toList.head? = some ')' by decide)
      rwa [List.map_id] at hread
    simp only [String.toList_append, List.append_assoc]
    have hmem : ("return String(format: ", readResult) ∈ keywords := by simp [keywords]
    rw [readLine_keyword hmem (by decide)]
    simp only [readResult, readLookup_lookup, after?_append, hlist, Option.bind_eq_bind,
      Option.bind_some, Option.pure_def]

end LocaleAccessors.Source.Swift
