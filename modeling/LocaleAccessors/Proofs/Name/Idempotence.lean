import LocaleAccessors.Proofs.Name.Usable
import LocaleAccessors.Proofs.Name.Word
import LocaleAccessors.Proofs.Text.Capital

/-!
Identifiers made from identifiers. Without capitals an identifier stays what it is. With capitals it does
unless a word of the segment begins with a letter whose upper case has marks that are no letters: the
first time they are put in, the second time they are taken out.
-/

namespace LocaleAccessors.Name
open Text (isAlphanumeric isDigit uppercase exists_uppercase)

/-- The characters of an identifier before words are joined. -/
def underscored (cs : List Char) : List Char :=
  cs.map fun c => if isAlphanumeric c then c else '_'

def escaped (reserved : List String) : List Char → List Char
  | [] => ['_']
  | c :: rest =>
    if isDigit c || String.ofList (c :: rest) ∈ reserved then '_' :: c :: rest else c :: rest

section words
variable {cs w rest : List Char}

theorem words_underscore (cs : List Char) : words ('_' :: cs) = words cs := by
  rw [words]

theorem words_cons_cons {c d : Char} {word : List Char} {more : List (List Char)} (hc : c ≠ '_')
    (hd : d ≠ '_') (h : words (d :: rest) = word :: more) :
    words (c :: d :: rest) = (c :: word) :: more := by
  rw [words.eq_def]
  simp [hd, h]

theorem words_run (hne : w ≠ []) (hw : '_' ∉ w) (hrest : ∀ c ∈ rest.head?, c = '_') :
    words (w ++ rest) = w :: words rest := by
  induction w with
  | nil => exact absurd rfl hne
  | cons c w ih =>
    obtain ⟨hc, hw⟩ := not_or.mp (List.mem_cons.not.mp hw)
    cases w with
    | nil =>
      cases rest with
      | nil => simp [words, Ne.symm hc]
      | cons d rest =>
        obtain rfl := hrest d rfl
        simp [words, Ne.symm hc]
    | cons d w =>
      have hd : d ≠ '_' := fun h => hw (h ▸ List.mem_cons_self)
      exact words_cons_cons (Ne.symm hc) hd (ih (List.cons_ne_nil d w) hw)

theorem ne_nil_of_mem_words : ∀ word ∈ words cs, word ≠ [] := by
  fun_induction words cs <;> simp_all

theorem mem_of_mem_words {word : List Char} (hword : word ∈ words cs) {c : Char} (hc : c ∈ word) :
    c ∈ cs ∧ c ≠ '_' := by
  have hflat : c ∈ (words cs).flatten := List.mem_flatten_of_mem hword hc
  rw [flatten_words] at hflat
  simpa using hflat

end words

section identifiers
variable {cs : List Char}

theorem isAlphanumeric_underscore : isAlphanumeric '_' = false := by
  decide +kernel

theorem ne_underscore {c : Char} (h : isAlphanumeric c) : c ≠ '_' := by
  rintro rfl
  rw [isAlphanumeric_underscore] at h
  cases h

/-- What an identifier is made of before underscores are put in front. -/
def Rules.joined (rules : Rules) (cs : List Char) : List Char :=
  if rules.capitalize then camelCase (underscored cs) else underscored cs

theorem identifier_eq (rules : Rules) (segment : String) :
    rules.identifier segment =
      String.ofList (escaped rules.reserved (rules.joined segment.toList)) := by
  unfold Rules.identifier Rules.joined
  dsimp only
  split
  · next h =>
    rw [underscored, h]
    rfl
  · next c rest h =>
    rw [underscored, h, escaped]
    split_ifs
    · rw [← String.toList_inj]
      simp
    · rfl

theorem toList_identifier (rules : Rules) (segment : String) :
    (rules.identifier segment).toList = escaped rules.reserved (rules.joined segment.toList) := by
  rw [identifier_eq, String.toList_ofList]

theorem underscored_of_forall (h : ∀ c ∈ cs, isAlphanumeric c ∨ c = '_') : underscored cs = cs := by
  refine (List.map_congr_left fun c hc => ?_).trans (List.map_id cs)
  rcases h c hc with hc | rfl
  · exact if_pos hc
  · exact ite_self _

theorem mem_underscored : ∀ c ∈ underscored cs, isAlphanumeric c ∨ c = '_' := by
  intro d hd
  obtain ⟨c, -, rfl⟩ := List.mem_map.mp hd
  split
  · next hc => exact .inl hc
  · exact .inr rfl

theorem escaped_cases (reserved : List String) (cs : List Char) :
    (escaped reserved cs = '_' :: cs) ∨ (cs ≠ [] ∧ escaped reserved cs = cs) := by
  cases cs with
  | nil => exact .inl rfl
  | cons c rest =>
    rw [escaped]
    split_ifs
    · exact .inl rfl
    · exact .inr ⟨List.cons_ne_nil c rest, rfl⟩

theorem escaped_of_usable {reserved : List String} (h : Usable reserved (String.ofList cs)) :
    escaped reserved cs = cs := by
  cases cs with
  | nil => exact absurd rfl h.not_empty
  | cons c rest =>
    have hdigit : ¬ isDigit c := h.not_digit c (by simp)
    rw [escaped, if_neg]
    rw [Bool.or_eq_true, decide_eq_true_eq, not_or]
    exact ⟨hdigit, h.not_reserved⟩

theorem escaped_inj {reserved : List String} {a b : List Char} (ha : ∀ c ∈ a.head?, c ≠ '_')
    (hb : ∀ c ∈ b.head?, c ≠ '_') : escaped reserved a = escaped reserved b ↔ a = b := by
  refine ⟨fun h => ?_, congrArg _⟩
  rcases escaped_cases reserved a with ha' | ⟨-, ha'⟩ <;>
    rcases escaped_cases reserved b with hb' | ⟨-, hb'⟩ <;> rw [ha', hb'] at h
  · exact (List.cons.inj h).2
  · exact absurd rfl (hb '_' (h ▸ rfl))
  · exact absurd rfl (ha '_' (h ▸ rfl))
  · exact h

theorem words_underscored_escaped (reserved : List String) (cs : List Char) :
    words (underscored (escaped reserved cs)) = words (underscored cs) := by
  rcases escaped_cases reserved cs with h | ⟨-, h⟩ <;> rw [h]
  exact words_underscore (underscored cs)

end identifiers

section capitals
variable {cs w : List Char} {ws : List (List Char)}

theorem camelCase_of_nil (h : words cs = []) : camelCase cs = cs := by
  rw [camelCase, h]

theorem camelCase_of_ne_nil (h : words cs ≠ []) :
    camelCase cs = (words cs).flatMap capitalized := by
  unfold camelCase
  split
  · next hnil => exact absurd hnil h
  · rfl

theorem words_underscored (cs : List Char) :
    ∀ word ∈ words (underscored cs), word ≠ [] ∧ ∀ c ∈ word, isAlphanumeric c := by
  refine fun word hword => ⟨ne_nil_of_mem_words word hword, fun c hc => ?_⟩
  obtain ⟨hmem, hne⟩ := mem_of_mem_words hword hc
  exact (mem_underscored c hmem).resolve_right hne

theorem exists_capitals (hne : ws ≠ [])
    (hws : ∀ word ∈ ws, word ≠ [] ∧ ∀ c ∈ word, isAlphanumeric c) :
    ∃ c rest, ws.flatMap capitalized = c :: rest ∧ isAlphanumeric c ∧ uppercase c = [c] := by
  cases ws with
  | nil => exact absurd rfl hne
  | cons word more =>
    obtain ⟨hword, hchars⟩ := hws word List.mem_cons_self
    cases word with
    | nil => exact absurd rfl hword
    | cons c rest =>
      obtain ⟨d, marks, hd, halpha, hself⟩ := exists_uppercase (hchars c List.mem_cons_self)
      refine ⟨d, marks ++ rest ++ more.flatMap capitalized, ?_, halpha, hself⟩
      rw [List.flatMap_cons, capitalized, hd, List.cons_append, List.cons_append]

theorem capitalized_of_self {c : Char} {rest : List Char} (h : uppercase c = [c]) :
    capitalized (c :: rest) = c :: rest := by
  rw [capitalized, h, List.singleton_append]

theorem underscored_append (as bs : List Char) :
    underscored (as ++ bs) = underscored as ++ underscored bs :=
  List.map_append

theorem camelCase_run (hne : w ≠ []) (hw : ∀ c ∈ w, isAlphanumeric c) (hcs : ∀ c ∈ cs.head?, c = '_') :
    camelCase (w ++ cs) = capitalized w ++ (words cs).flatMap capitalized := by
  have hwords : words (w ++ cs) = w :: words cs :=
    words_run hne (fun hmem => ne_underscore (hw _ hmem) rfl) hcs
  rw [camelCase_of_ne_nil (hwords ▸ List.cons_ne_nil _ _), hwords, List.flatMap_cons]

theorem camelCase_mark_ne {first mark : Char} {run more : List Char} (hself : uppercase first = [first])
    (hrun : ∀ c ∈ first :: run, isAlphanumeric c) (hmark : isAlphanumeric mark = false) :
    camelCase (underscored (first :: run ++ mark :: more)) ≠ first :: run ++ mark :: more := by
  intro h
  have hmore : underscored (mark :: more) = '_' :: underscored more := by
    rw [underscored, List.map_cons, hmark]
    rfl
  have hword : underscored (first :: run) = first :: run :=
    underscored_of_forall fun c hc => .inl (hrun c hc)
  have hhead : ∀ c ∈ ('_' :: underscored more).head?, c = '_' := fun c hc => (Option.some.inj hc).symm
  rw [underscored_append, hword, hmore, camelCase_run (List.cons_ne_nil first run) hrun hhead,
    capitalized_of_self hself, List.append_cancel_left_eq, words_underscore] at h
  by_cases hnil : words (underscored more) = []
  · rw [hnil, List.flatMap_nil] at h
    cases h
  · obtain ⟨c, rest, hnext, hc, -⟩ := exists_capitals hnil (words_underscored more)
    rw [hnext] at h
    rw [(List.cons.inj h).1, hmark] at hc
    cases hc

theorem camelCase_capitals_iff (hne : ws ≠ [])
    (hws : ∀ word ∈ ws, word ≠ [] ∧ ∀ c ∈ word, isAlphanumeric c) :
    camelCase (underscored (ws.flatMap capitalized)) = ws.flatMap capitalized ↔
      ∀ c ∈ ws.flatMap capitalized, isAlphanumeric c := by
  obtain ⟨first, tail, hcapitals, hfirst, hself⟩ := exists_capitals hne hws
  rw [hcapitals]
  constructor
  · intro h
    cases hfind : tail.find? (!isAlphanumeric ·) with
    | none => simpa [hfirst] using hfind
    | some mark =>
      obtain ⟨hmark, run, more, rfl, hrun⟩ := List.find?_eq_some_iff_append.mp hfind
      have hchars : ∀ c ∈ first :: run, isAlphanumeric c := by simpa [hfirst] using hrun
      exact absurd h (camelCase_mark_ne hself hchars (by simpa using hmark))
  · intro h
    have hword : camelCase (first :: tail ++ []) = capitalized (first :: tail) ++ [] :=
      camelCase_run (List.cons_ne_nil first tail) h nofun
    rw [List.append_nil, List.append_nil, capitalized_of_self hself] at hword
    rw [underscored_of_forall fun c hc => .inl (h c hc), hword]

theorem words_ne_nil {c : Char} (hc : isAlphanumeric c) (rest : List Char) :
    words (c :: rest) ≠ [] := by
  intro h
  have hflat := flatten_words (c :: rest)
  rw [h, List.filter_cons_of_pos (by simpa using ne_underscore hc)] at hflat
  cases hflat

theorem escaped_capitals_iff (reserved : List String) (hne : ws ≠ [])
    (hws : ∀ word ∈ ws, word ≠ [] ∧ ∀ c ∈ word, isAlphanumeric c) :
    escaped reserved (camelCase (underscored (escaped reserved (ws.flatMap capitalized)))) =
        escaped reserved (ws.flatMap capitalized) ↔
      ∀ c ∈ ws.flatMap capitalized, isAlphanumeric c := by
  obtain ⟨c, rest, hcapitals, hc, -⟩ := exists_capitals hne hws
  have hplain : underscored (c :: rest) = c :: underscored rest := by
    rw [underscored, List.map_cons, if_pos hc]
    rfl
  have hagain : words (underscored (ws.flatMap capitalized)) ≠ [] := by
    rw [hcapitals, hplain]
    exact words_ne_nil hc (underscored rest)
  obtain ⟨d, more, hcamel, hd, -⟩ := exists_capitals hagain (words_underscored _)
  have hunescaped : camelCase (underscored (escaped reserved (ws.flatMap capitalized))) =
      camelCase (underscored (ws.flatMap capitalized)) := by
    rw [camelCase_of_ne_nil (by rwa [words_underscored_escaped]), words_underscored_escaped,
      camelCase_of_ne_nil hagain]
  rw [hunescaped, escaped_inj, camelCase_capitals_iff hne hws]
  · rw [camelCase_of_ne_nil hagain, hcamel]
    rintro _ ⟨⟩
    exact ne_underscore hd
  · rw [hcapitals]
    rintro _ ⟨⟩
    exact ne_underscore hc

theorem forall_mem_capitals_iff (hws : ∀ word ∈ ws, word ≠ [] ∧ ∀ c ∈ word, isAlphanumeric c) :
    (∀ c ∈ ws.flatMap capitalized, isAlphanumeric c) ↔
      ∀ word ∈ ws, ∀ c ∈ word.head?, ∀ d ∈ uppercase c, isAlphanumeric d := by
  constructor
  · intro h word hword c hc d hd
    obtain ⟨rest, rfl⟩ := List.head?_eq_some_iff.mp hc
    exact h d (List.mem_flatMap.mpr ⟨c :: rest, hword, List.mem_append_left rest hd⟩)
  · intro h d hd
    obtain ⟨word, hword, hd⟩ := List.mem_flatMap.mp hd
    cases word with
    | nil => cases hd
    | cons c rest =>
      rcases List.mem_append.mp hd with hd | hd
      · exact h (c :: rest) hword c rfl d hd
      · exact (hws (c :: rest) hword).2 d (List.mem_cons_of_mem c hd)

end capitals

section twice
variable {language : Language} {capitalize : Bool} {cs : List Char}

theorem joined_capitals (language : Language) (cs : List Char) :
    (Rules.of language true).joined cs = camelCase (underscored cs) :=
  rfl

theorem joined_of_nil (h : capitalize → words (underscored cs) = []) :
    (Rules.of language capitalize).joined cs = underscored cs := by
  unfold Rules.joined
  split
  · next hcap => exact camelCase_of_nil (h hcap)
  · rfl

theorem underscored_escaped (reserved : List String) (cs : List Char) :
    underscored (escaped reserved (underscored cs)) = escaped reserved (underscored cs) := by
  refine underscored_of_forall fun c hc => ?_
  rcases escaped_cases reserved (underscored cs) with h | ⟨-, h⟩ <;> rw [h] at hc
  · rcases List.mem_cons.mp hc with rfl | hc
    · exact .inr rfl
    · exact mem_underscored c hc
  · exact mem_underscored c hc

variable (language) (capitalize) (segment : String)

/-- An identifier is made into itself, with capitals if and only if the upper case of each first letter
holds letters and digits only. -/
theorem identifier_idempotent_iff :
    (Rules.of language capitalize).identifier ((Rules.of language capitalize).identifier segment) =
        (Rules.of language capitalize).identifier segment ↔
      (capitalize → ∀ word ∈ words (underscored segment.toList), ∀ c ∈ word.head?,
        ∀ d ∈ uppercase c, isAlphanumeric d) := by
  have husable := usable_identifier language capitalize segment
  rw [← String.toList_inj, toList_identifier]
  by_cases hjoined : capitalize → words (underscored segment.toList) = []
  · -- No capitals are put in, neither now nor the second time.
    refine iff_of_true ?_ fun hcap => by simp [hjoined hcap]
    have hname : (Rules.of language capitalize).joined
        ((Rules.of language capitalize).identifier segment).toList =
        ((Rules.of language capitalize).identifier segment).toList := by
      rw [toList_identifier, joined_of_nil hjoined, joined_of_nil, underscored_escaped]
      rwa [words_underscored_escaped, underscored_of_forall mem_underscored]
    rw [hname, escaped_of_usable]
    rwa [String.ofList_toList]
  · obtain ⟨rfl, hne⟩ := Classical.not_imp.mp hjoined
    have hws := words_underscored segment.toList
    rw [toList_identifier, joined_capitals, joined_capitals, camelCase_of_ne_nil hne,
      escaped_capitals_iff _ hne hws, forall_mem_capitals_iff hws]
    exact (imp_iff_right rfl).symm

/-- The upper case of a small j with a caron is a capital with a mark after it. The mark is no letter, so
it is gone when the identifier is made into an identifier. -/
theorem capital_loses_mark :
    (Rules.of .swift true).identifier "\u01f0" = "J\u030c" ∧
      (Rules.of .swift true).identifier ((Rules.of .swift true).identifier "\u01f0") = "J" ∧
      (Rules.of .swift true).identifier ((Rules.of .swift true).identifier "\u01f0") ≠
        (Rules.of .swift true).identifier "\u01f0" := by
  decide +kernel

end twice


end LocaleAccessors.Name
