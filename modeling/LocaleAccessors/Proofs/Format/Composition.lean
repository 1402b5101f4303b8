import LocaleAccessors.Format.Inference
import LocaleAccessors.Proofs.Format.Fields
import LocaleAccessors.Proofs.Format.Numbers

/-!
Composed texts: literal texts with doubled percent signs, and specifiers in any spelling between them.
A scan finds the specifiers where they were put, whatever the texts around them look like, and so the
texts have no part in what is inferred.
-/

namespace LocaleAccessors.Format
open Text (maxDigits)

/-- A part of a text. No zero in front of a width is counted to it, since it reads as a flag. -/
inductive Item where
  | literal (text : String)
  | specifier (spelling : Spelling) (valid : spelling.Valid) (normal : spelling.Normal)

def doubled (text : List Char) : List Char :=
  text.flatMap fun c => if c = '%' then ['%', '%'] else [c]

namespace Item

def chars : Item → List Char
  | literal text => doubled text.toList
  | specifier spelling _ _ => '%' :: spelling.chars

def found? (start : Nat) : Item → Option Found
  | literal _ => none
  | specifier spelling _ _ => some ⟨spelling, String.ofList ('%' :: spelling.chars), start⟩

end Item

def composed (items : List Item) : String :=
  String.ofList (items.flatMap Item.chars)

/-- The specifiers among the items, each at the number of characters in front of it. -/
def placed (start : Nat) : List Item → List Found
  | [] => []
  | item :: items => (item.found? start).toList ++ placed (start + item.chars.length) items

/-! One item in front of any text. -/

section scan
variable (offset : Nat) (rest : List Char)

theorem scanFrom_doubled_percent :
    scanFrom offset ('%' :: '%' :: rest) = scanFrom (offset + 2) rest := by
  rw [scanFrom]

theorem scanFrom_other {c : Char} (h : c ≠ '%') :
    scanFrom offset (c :: rest) = scanFrom (offset + 1) rest := by
  rw [scanFrom] <;> simp [h]

theorem doubled_cons (c : Char) (text : List Char) :
    doubled (c :: text) = (if c = '%' then ['%', '%'] else [c]) ++ doubled text :=
  List.flatMap_cons

theorem scanFrom_doubled (text : List Char) :
    scanFrom offset (doubled text ++ rest) = scanFrom (offset + (doubled text).length) rest := by
  induction text generalizing offset with
  | nil => rfl
  | cons c text ih =>
    by_cases hc : c = '%'
    · rw [doubled_cons, if_pos hc, List.cons_append, List.cons_append, List.cons_append,
        List.cons_append, List.nil_append, scanFrom_doubled_percent, ih]
      congr 1
      simp only [List.length_cons]
      omega
    · rw [doubled_cons, if_neg hc, List.singleton_append, List.cons_append, scanFrom_other _ _ hc, ih,
        List.length_cons, Nat.add_right_comm, Nat.add_assoc]

theorem scanFrom_item (item : Item) :
    scanFrom offset (item.chars ++ rest) =
      (item.found? offset).toList ++ scanFrom (offset + item.chars.length) rest := by
  cases item with
  | literal text => exact scanFrom_doubled offset rest text.toList
  | specifier spelling valid normal => exact scanFrom_specifier offset rest valid normal

end scan

/-! All items of a text. -/

theorem scanFrom_items (offset : Nat) (items : List Item) :
    scanFrom offset (items.flatMap Item.chars) = placed offset items := by
  induction items generalizing offset with
  | nil => rw [List.flatMap_nil, scanFrom, placed]
  | cons item items ih => rw [List.flatMap_cons, scanFrom_item, ih, placed]

/-! Inference does not look at the places of specifiers. -/

def Specifier.unplaced (s : Specifier) : Specifier :=
  { s with start := 0 }

theorem unnumberedSlots_unplaced (group : Nat) (found : List Specifier) :
    unnumberedSlots group (found.map Specifier.unplaced) = unnumberedSlots group found := by
  induction found generalizing group with
  | nil => rfl
  | cons s found ih =>
    rw [List.map_cons, unnumberedSlots, unnumberedSlots, ih]
    rfl

theorem numberedSlots_unplaced (found : List Specifier) :
    numberedSlots (found.map Specifier.unplaced) = numberedSlots found := by
  rw [numberedSlots, numberedSlots, List.flatMap_map]
  rfl

theorem infer_unplaced (found : List Specifier) :
    infer (found.map Specifier.unplaced) = infer found := by
  have hslots : slotsOf (found.map Specifier.unplaced) = slotsOf found := by
    cases found with
    | nil => rfl
    | cons first rest =>
      have hpositions : ((first :: rest).map Specifier.unplaced).map (·.position) =
          (first :: rest).map (·.position) := List.map_map
      rw [List.map_cons, slotsOf, slotsOf, ← List.map_cons, numberedSlots_unplaced,
        unnumberedSlots_unplaced, hpositions, List.length_map]
      rfl
  rw [infer, infer, hslots]

theorem unplaced_placed (start : Nat) (items : List Item) :
    ((placed start items).map Found.specifier).map Specifier.unplaced =
      (items.filterMap (Item.found? 0)).map Found.specifier := by
  induction items generalizing start with
  | nil => rfl
  | cons item items ih =>
    cases item with
    | literal text => exact ih _
    | specifier spelling valid normal => exact congrArg (_ :: ·) (ih _)

theorem numbersOf_placed (start : Nat) (items : List Item) :
    numbersOf (placed start items) = numbersOf (items.filterMap (Item.found? 0)) := by
  induction items generalizing start with
  | nil => rfl
  | cons item items ih =>
    cases item with
    | literal text => exact ih _
    | specifier spelling valid normal => exact congrArg (spelling.numbers ++ ·) (ih _)

theorem specifiers_of_items (items : List Item) :
    specifiers (composed items) =
      unlessLong (numbersOf (placed 0 items)) ((placed 0 items).map Found.specifier) := by
  rw [specifiers_eq, composed, String.toList_ofList, scanFrom_items]

/-- A text composed of items has exactly their specifiers, and what is inferred from it depends on
these alone. Where a number of the specifiers is too long, the first such number ends both. -/
theorem specifiers_composed (items : List Item) :
    specifiers (composed items) =
        unlessLong (numbersOf (placed 0 items)) ((placed 0 items).map Found.specifier) ∧
      inferText (composed items) =
        unlessLong (numbersOf (items.filterMap (Item.found? 0)))
          ((items.filterMap (Item.found? 0)).map Found.specifier) >>= infer := by
  refine ⟨specifiers_of_items items, ?_⟩
  rw [inferText, specifiers_of_items, ← unplaced_placed 0, numbersOf_placed, unlessLong_bind_eq,
    ← infer_unplaced, ← unlessLong_bind_eq]

/-- A precision of zeros alone, which is the number zero, with more digits than are read. -/
def longPrecision : Spelling :=
  ⟨none, [], none, some (.digits (List.replicate 4301 '0')), none, .fixed⟩

/-- The specifier is spelled from the fields of the grammar, and nothing is found. -/
theorem long_precision_not_found :
    ∃ (valid : longPrecision.Valid) (normal : longPrecision.Normal),
      specifiers (composed [.specifier longPrecision valid normal]) = .error (.unread 4301) := by
  have hvalid : longPrecision.Valid := by
    refine ⟨nofun, List.forall_mem_nil _, nofun, ?_⟩
    rintro _ ⟨⟩ d hd
    rw [List.eq_of_mem_replicate hd]
    decide
  refine ⟨hvalid, nofun, ?_⟩
  rw [specifiers_of_items]
  have hlong : maxDigits < (List.replicate 4301 '0').length := by
    rw [List.length_replicate]
    decide
  exact (unlessLong_cons_of_long hlong _).trans (by rw [List.length_replicate])

end LocaleAccessors.Format
