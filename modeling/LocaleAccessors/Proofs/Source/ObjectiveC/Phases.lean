import LocaleAccessors.Proofs.Namespace.Words
import LocaleAccessors.Proofs.Source.Layout
import LocaleAccessors.Proofs.Text.Digit
import LocaleAccessors.Source.ObjectiveC

/-!
What a compiler of C keeps of a text before it reads tokens. It first joins a line that ends in a
backslash with the next one, and only then puts a space for each comment. Code without comments is kept
as it is, and so is what comes after it, as if that stood alone. Trigraphs are not replaced.
-/

namespace LocaleAccessors.Source.ObjectiveC
open Format (ValueType)
open Text (IsWord OctalDigit numeral octal_numeral)

/-- The text without the newlines that a backslash stands before, and without these backslashes. -/
def splice : List Char → List Char
  | [] => []
  | '\\' :: '\n' :: rest => splice rest
  | c :: rest => c :: splice rest

/-- Where the compiler stands: in code, in a comment, in a literal with the quote that ends it, after a
backslash in such a literal, or before the second character of a sign that leads to another place. -/
inductive Zone where
  | code
  | lineComment
  | blockComment
  | literal (quote : Char)
  | escaped (quote : Char)
  | passing (next : Zone)

def withoutComments : Zone → List Char → List Char
  | _, [] => []
  | .code, c :: rest =>
    if c = '/' ∧ rest.head? = some '/' then ' ' :: withoutComments .lineComment rest
    else if c = '/' ∧ rest.head? = some '*' then ' ' :: withoutComments (.passing .blockComment) rest
    else c :: withoutComments (if c = '"' ∨ c = '\'' then .literal c else .code) rest
  | .lineComment, c :: rest =>
    if c = '\n' then c :: withoutComments .code rest else withoutComments .lineComment rest
  | .blockComment, c :: rest =>
    if c = '*' ∧ rest.head? = some '/' then withoutComments (.passing .code) rest
    else withoutComments .blockComment rest
  | .literal quote, c :: rest =>
    c :: withoutComments (if c = '\\' then .escaped quote
      else if c = quote ∨ c = '\n' then .code else .literal quote) rest
  | .escaped quote, c :: rest => c :: withoutComments (.literal quote) rest
  | .passing next, _ :: rest => withoutComments next rest

def liveChars (cs : List Char) : List Char :=
  withoutComments .code (splice cs)

/-- The text that tokens are read from. -/
def live (text : String) : String :=
  String.ofList (liveChars text.toList)

def EndsInBackslash (line : String) : Prop :=
  line.toList.getLast? = some '\\'

instance (line : String) : Decidable (EndsInBackslash line) :=
  inferInstanceAs (Decidable (_ = _))

/-! Characters in front of a text. -/

section characters
variable {c : Char} {cs rest : List Char}

theorem splice_cons (h : c = '\\' → rest.head? ≠ some '\n') : splice (c :: rest) = c :: splice rest := by
  rw [splice]
  rintro more rfl rfl
  exact h rfl rfl

theorem splice_newline (rest : List Char) : splice ('\\' :: '\n' :: rest) = splice rest :=
  rfl

theorem splice_append (h : '\n' ∉ cs) (hjoin : cs.getLast? = some '\\' → rest.head? ≠ some '\n') :
    splice (cs ++ rest) = cs ++ splice rest := by
  induction cs with
  | nil => rfl
  | cons c cs ih =>
    rw [List.mem_cons, not_or] at h
    cases cs with
    | nil => exact splice_cons fun hc => hjoin (congrArg some hc)
    | cons d cs =>
      have hd : d ≠ '\n' := fun heq => h.2 (heq ▸ List.mem_cons_self)
      have hkept : splice (c :: (d :: cs ++ rest)) = c :: splice (d :: cs ++ rest) :=
        splice_cons fun _ hhead => hd (Option.some.inj hhead)
      rw [List.cons_append, hkept, ih h.2 hjoin]
      rfl

theorem withoutComments_code (hslash : c ≠ '/') :
    withoutComments .code (c :: rest) =
      c :: withoutComments (if c = '"' ∨ c = '\'' then .literal c else .code) rest := by
  have hno : ∀ sign, ¬ (c = '/' ∧ rest.head? = some sign) := fun _ h => hslash h.1
  exact (if_neg (hno '/')).trans (if_neg (hno '*'))

theorem withoutComments_slashes (rest : List Char) :
    withoutComments .code ('/' :: '/' :: rest) = ' ' :: withoutComments .lineComment rest :=
  rfl

theorem withoutComments_lineComment (h : '\n' ∉ cs) (rest : List Char) :
    withoutComments .lineComment (cs ++ '\n' :: rest) = '\n' :: withoutComments .code rest := by
  induction cs with
  | nil => rfl
  | cons c cs ih =>
    rw [List.mem_cons, not_or] at h
    exact (if_neg (Ne.symm h.1)).trans (ih h.2)

def Inside (cs : List Char) : Prop :=
  ∀ rest, withoutComments (.literal '"') (cs ++ rest) = cs ++ withoutComments (.literal '"') rest

theorem Inside.append {others : List Char} (h : Inside cs) (hothers : Inside others) :
    Inside (cs ++ others) := by
  intro rest
  rw [List.append_assoc, h, hothers, List.append_assoc]

theorem inside_nil : Inside [] :=
  fun _ => rfl

theorem inside_escaped (c : Char) : Inside ['\\', c] :=
  fun _ => rfl

theorem inside_singleton (h : c ∉ ['"', '\\', '\n']) : Inside [c] := by
  simp only [List.mem_cons, List.not_mem_nil, or_false, not_or] at h
  obtain ⟨hquote, hbackslash, hnewline⟩ := h
  have hzone : (if c = '\\' then Zone.escaped '"' else if c = '"' ∨ c = '\n' then .code
      else .literal '"') = .literal '"' := by
    rw [if_neg hbackslash, if_neg (not_or.mpr ⟨hquote, hnewline⟩)]
  exact fun rest => congrArg (fun zone => c :: withoutComments zone rest) hzone

theorem inside_octal {digits : List Char} {values : List Nat}
    (h : List.Forall₂ OctalDigit digits values) : Inside digits := by
  induction h with
  | nil => exact inside_nil
  | @cons d v _ _ hd _ ih =>
    have hsigns : d ∉ ['"', '\\', '\n'] := by
      obtain ⟨hv, rfl⟩ := hd
      interval_cases v <;> decide
    exact (inside_singleton hsigns).append ih

theorem inside_controlEscape (hc : c.toNat < 0x80) : Inside (controlEscape .objectiveC c) := by
  obtain ⟨values, hdigits, hlength, -⟩ := octal_numeral hc
  unfold controlEscape
  generalize numeral 8 3 c.toNat = digits at hdigits
  cases hdigits with
  | nil => cases hlength
  | @cons d _ _ _ _ hmore => exact (inside_escaped d).append (inside_octal hmore)

theorem inside_escapeChar (c : Char) : Inside (escapeChar .objectiveC c) := by
  unfold escapeChar
  split
  case h_6 hbackslash hquote hnewline _ _ =>
    split
    · exact inside_controlEscape (by omega)
    · refine inside_singleton ?_
      simp only [List.mem_cons, List.not_mem_nil, or_false, not_or]
      exact ⟨hquote, hbackslash, hnewline⟩
  all_goals exact inside_escaped _

theorem inside_escape (text : String) : Inside (escape .objectiveC text).toList := by
  rw [escape, String.toList_ofList]
  induction text.toList with
  | nil => exact inside_nil
  | cons c cs ih =>
    rw [List.flatMap_cons]
    exact (inside_escapeChar c).append ih

theorem inside_fileName (h : ∀ c ∈ cs, c ≠ '"' ∧ c ≠ '\n') :
    Inside (cs ++ ".h".toList) ∧ Inside ('\\' :: (cs ++ ".h".toList)) := by
  induction cs with
  | nil =>
    have hletter : Inside ['h'] := inside_singleton (by decide)
    exact ⟨(inside_singleton (by decide)).append hletter, (inside_escaped '.').append hletter⟩
  | cons c cs ih =>
    obtain ⟨⟨hquote, hnewline⟩, hcs⟩ := List.forall_mem_cons.mp h
    refine ⟨?_, (inside_escaped c).append (ih hcs).1⟩
    by_cases hbackslash : c = '\\'
    · rw [hbackslash]
      exact (ih hcs).2
    · exact (inside_singleton (by simp [*])).append (ih hcs).1

theorem liveChars_cons (h : c ∉ ['/', '"', '\'', '\\']) :
    liveChars (c :: rest) = c :: liveChars rest := by
  simp only [List.mem_cons, List.not_mem_nil, or_false, not_or] at h
  obtain ⟨hslash, hquote, hmark, hbackslash⟩ := h
  rw [liveChars, splice_cons fun hc => absurd hc hbackslash, withoutComments_code hslash,
    if_neg (not_or.mpr ⟨hquote, hmark⟩)]
  rfl

theorem liveChars_quoted (honeLine : '\n' ∉ cs) (h : Inside cs) (rest : List Char) :
    liveChars ('"' :: (cs ++ '"' :: rest)) = '"' :: (cs ++ '"' :: liveChars rest) := by
  have hsplice : splice ('"' :: (cs ++ '"' :: rest)) = '"' :: (cs ++ '"' :: splice rest) := by
    rw [splice_cons (by simp), splice_append honeLine (by simp), splice_cons (by simp)]
  have hend : withoutComments (.literal '"') ('"' :: splice rest) = '"' :: liveChars rest := rfl
  rw [liveChars, hsplice, withoutComments_code (by decide), if_pos (.inl rfl), h, hend]

theorem liveChars_comment (honeLine : '\n' ∉ cs) (hend : cs.getLast? ≠ some '\\')
    (rest : List Char) :
    liveChars ('/' :: '/' :: (cs ++ '\n' :: rest)) = ' ' :: '\n' :: liveChars rest := by
  have hsplice : splice ('/' :: '/' :: (cs ++ '\n' :: rest)) =
      '/' :: '/' :: (cs ++ '\n' :: splice rest) := by
    rw [splice_cons (by simp), splice_cons (by simp), splice_append honeLine fun h => absurd h hend,
      splice_cons (by simp)]
  rw [liveChars, hsplice, withoutComments_slashes, withoutComments_lineComment honeLine]
  rfl

theorem liveChars_joined {line : List Char} (honeLine : '\n' ∉ cs) (hline : '\n' ∉ line)
    (hend : line.getLast? ≠ some '\\') (rest : List Char) :
    liveChars ('/' :: '/' :: (cs ++ '\\' :: '\n' :: (line ++ '\n' :: rest))) =
      ' ' :: '\n' :: liveChars rest := by
  have hsplice : splice ('/' :: '/' :: (cs ++ '\\' :: '\n' :: (line ++ '\n' :: rest))) =
      '/' :: '/' :: ((cs ++ line) ++ '\n' :: splice rest) := by
    rw [splice_cons (by simp), splice_cons (by simp), splice_append honeLine (by simp), splice_newline,
      splice_append hline fun h => absurd h hend, splice_cons (by simp), List.append_assoc]
  have hboth : '\n' ∉ cs ++ line := by
    rw [List.mem_append, not_or]
    exact ⟨honeLine, hline⟩
  rw [liveChars, hsplice, withoutComments_slashes, withoutComments_lineComment hboth]
  rfl

end characters

/-! Texts. -/

section texts
variable {text other : String}

def Whole (text : String) : Prop :=
  ∀ rest, live (text ++ rest) = live text ++ live rest

def Kept (text : String) : Prop :=
  ∀ rest, live (text ++ rest) = text ++ live rest

theorem Whole.append (h : Whole text) (hother : Whole other) : Whole (text ++ other) := by
  intro rest
  rw [String.append_assoc, h, hother, h, String.append_assoc]

theorem Kept.append (h : Kept text) (hother : Kept other) : Kept (text ++ other) := by
  intro rest
  rw [String.append_assoc, h, hother, String.append_assoc]

theorem live_eq_of_forall {left : String} (h : ∀ rest, live (text ++ rest) = left ++ live rest) :
    live text = left := by
  have halone := h ""
  rwa [String.append_empty, show live "" = "" from rfl, String.append_empty] at halone

theorem whole_of_forall {left : String} (h : ∀ rest, live (text ++ rest) = left ++ live rest) :
    Whole text := by
  intro rest
  rw [h, live_eq_of_forall h]

theorem Kept.whole (h : Kept text) : Whole text :=
  whole_of_forall h

theorem kept_of_chars (h : ∀ rest, liveChars (text.toList ++ rest) = text.toList ++ liveChars rest) :
    Kept text := by
  intro rest
  rw [live, String.toList_append, h, String.ofList_append, String.ofList_toList, live]

theorem kept_of_forall_mem (h : ∀ c ∈ text.toList, c ∉ ['/', '"', '\'', '\\']) : Kept text := by
  refine kept_of_chars fun rest => ?_
  generalize text.toList = cs at h
  induction cs with
  | nil => rfl
  | cons c cs ih =>
    obtain ⟨hc, hcs⟩ := List.forall_mem_cons.mp h
    rw [List.cons_append, liveChars_cons hc, ih hcs, List.cons_append]

theorem kept_newline : Kept "\n" :=
  kept_of_forall_mem (Text.forall_mem_of_all (by decide))

def Plain (text : String) : Prop :=
  ∀ c ∈ text.toList, c ∉ ['/', '"', '\'', '\\', '\n']

instance (text : String) : Decidable (Plain text) :=
  decidable_of_iff (text.toList.all fun c => c ∉ ['/', '"', '\'', '\\', '\n'])
    (by simp only [List.all_eq_true, decide_eq_true_iff, Plain])

theorem Plain.append (h : Plain text) (hother : Plain other) : Plain (text ++ other) := by
  rw [Plain, String.toList_append, List.forall_mem_append]
  exact ⟨h, hother⟩

theorem plain_of_isWord (h : IsWord text) : Plain text := by
  have hsigns : ∀ c ∈ ['/', '"', '\'', '\\', '\n'], ¬ Text.isWordChar c :=
    Text.forall_mem_of_all (by decide)
  exact fun c hc hmem => hsigns c hmem (h.chars c hc)

theorem Plain.oneLine (h : Plain text) : OneLine text :=
  fun hmem => h _ hmem (by decide)

theorem Plain.not_endsInBackslash (h : Plain text) : ¬ EndsInBackslash text :=
  fun hlast => h _ (List.mem_of_getLast? hlast) (by decide)

theorem Plain.kept (h : Plain text) : Kept text :=
  kept_of_forall_mem fun c hc hmem => h c hc (List.mem_append_left ['\n'] hmem)

theorem Kept.line {text : String} (h : Kept text) : Whole (text ++ "\n") :=
  (h.append kept_newline).whole

theorem kept_quoted (honeLine : OneLine text) (h : Inside text.toList) :
    Kept ("\"" ++ text ++ "\"") := by
  refine kept_of_chars fun rest => ?_
  have hquoted := liveChars_quoted honeLine h rest
  simpa using hquoted

theorem kept_quote (text : String) : Kept (quote text) := by
  have hmark : "@\"" = "@" ++ "\"" := by decide
  have hplain : Plain "@" := by decide
  have hquoted := hplain.kept.append
    (kept_quoted (oneLine_escape .objectiveC text) (inside_escape text))
  rw [quote, hmark]
  simpa only [String.append_assoc] using hquoted

end texts

/-! Lines that are comments. -/

structure IsComment (line : String) : Prop where
  slashes : "//".toList <+: line.toList
  oneLine : OneLine line

instance (line : String) : Decidable (IsComment line) :=
  decidable_of_iff ("//".toList <+: line.toList ∧ OneLine line)
    ⟨fun h => ⟨h.1, h.2⟩, fun h => ⟨h.slashes, h.oneLine⟩⟩

section comments
variable {line code : String}

theorem IsComment.eq_slashes (h : IsComment line) :
    ∃ cs, line.toList = '/' :: '/' :: cs ∧ '\n' ∉ cs ∧
      (EndsInBackslash line ↔ cs.getLast? = some '\\') := by
  obtain ⟨cs, hcs⟩ := h.slashes
  have hline : line.toList = '/' :: '/' :: cs := hcs.symm
  refine ⟨cs, hline, fun hmem => h.oneLine ?_, ?_⟩
  · rw [hline]
    simp [hmem]
  · rw [EndsInBackslash, hline, List.getLast?_cons, List.getLast?_cons]
    cases cs.getLast? <;> simp

theorem live_comment (h : IsComment line) (hend : ¬ EndsInBackslash line) (rest : String) :
    live (line ++ "\n" ++ rest) = " \n" ++ live rest := by
  obtain ⟨cs, hline, honeLine, hlast⟩ := h.eq_slashes
  have hchars := liveChars_comment honeLine (hlast.not.mp hend) rest.toList
  apply String.toList_inj.mp
  simpa [live, hline] using hchars

theorem live_joined (h : IsComment line) (hend : EndsInBackslash line) (hcode : Plain code)
    (rest : String) : live (line ++ "\n" ++ code ++ "\n" ++ rest) = " \n" ++ live rest := by
  obtain ⟨cs, hline, honeLine, hlast⟩ := h.eq_slashes
  obtain ⟨front, rfl⟩ := List.getLast?_eq_some_iff.mp (hlast.mp hend)
  have hfront : '\n' ∉ front := fun hmem => honeLine (List.mem_append_left _ hmem)
  have hchars := liveChars_joined hfront hcode.oneLine hcode.not_endsInBackslash rest.toList
  apply String.toList_inj.mp
  simpa [live, hline] using hchars

theorem whole_comment (h : IsComment line) (hend : ¬ EndsInBackslash line) : Whole (line ++ "\n") :=
  whole_of_forall (live_comment h hend)

/-- A comment is left as a space, and takes the next line with it where it ends in a backslash. -/
theorem live_documented (h : IsComment line) (hcode : Plain code) (rest : String) :
    live (line ++ "\n" ++ code ++ "\n" ++ rest) =
      " \n" ++ (if EndsInBackslash line then "" else code ++ "\n") ++ live rest := by
  by_cases hend : EndsInBackslash line
  · rw [live_joined h hend hcode, if_pos hend, String.append_empty]
  · have hcomment := live_comment h hend (code ++ "\n" ++ rest)
    rw [(hcode.kept.append kept_newline) rest] at hcomment
    rw [if_neg hend]
    simpa only [String.append_assoc] using hcomment

end comments

/-! What code is made of. -/

theorem plain_typeName (type : ValueType) : Plain (typeName type) := by
  cases type <;> decide

theorem plain_commas {items : List String} (h : ∀ item ∈ items, Plain item) : Plain (commas items) := by
  intro c hc hmem
  have hcomma : ∀ c ∈ ['/', '"', '\'', '\\', '\n'], c ∉ ", ".toList :=
    Text.forall_mem_of_all (by decide)
  exact not_mem_commas (hcomma c hmem) (fun item hitem hmember => h item hitem c hmember hmem) hc

theorem plain_arguments {a : Accessor} (h : a.Worded) : Plain (commas (parameterNames a)) := by
  refine plain_commas ?_
  rw [parameterNames, List.forall_mem_map]
  exact fun x hx => plain_of_isWord (h.parameters x hx)

theorem plain_parameters {a : Accessor} (h : a.Worded) :
    Plain (commas (a.arguments.map fun x => typeName x.type ++ " " ++ x.name)) := by
  refine plain_commas ?_
  rw [List.forall_mem_map]
  intro x hx
  exact ((plain_typeName x.type).append (by decide)).append (plain_of_isWord (h.parameters x hx))

end LocaleAccessors.Source.ObjectiveC
