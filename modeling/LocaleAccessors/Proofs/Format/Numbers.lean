import LocaleAccessors.Proofs.Format.Grammar
import LocaleAccessors.Proofs.Result
import LocaleAccessors.Proofs.Text.Digit

/-!
The numbers of specifiers. They are read in the order in which they stand, and the first one with too
many digits ends the reading of the whole text; where there is none, every spelling has its meaning.
-/

namespace LocaleAccessors.Format
open Text (decimalValue maxDigits)

def Extent.numbers : Option Extent → List (List Char)
  | none => []
  | some (.digits ds) => [ds]
  | some (.star position) => position.toList

def Spelling.numbers (s : Spelling) : List (List Char) :=
  s.position.toList ++ Extent.numbers s.width ++ Extent.numbers s.precision

/-- What a spelling means, whatever the size of its numbers. -/
def Found.specifier (f : Found) : Specifier :=
  ⟨f.spelling.fields, f.spelling.conversion.kind, f.text, f.start⟩

def numbersOf (found : List Found) : List (List Char) :=
  found.flatMap fun f => f.spelling.numbers

/-- A result, unless one of the numbers has too many digits. -/
def unlessLong {α : Type} (numbers : List (List Char)) (a : α) : Except Fault α :=
  match numbers.find? fun ds => maxDigits < ds.length with
  | none => .ok a
  | some ds => .error (.unread ds.length)

section unlessLong
variable {α β γ : Type} {numbers others : List (List Char)}

theorem unlessLong_nil (a : α) : unlessLong [] a = .ok a :=
  rfl

theorem unlessLong_cons_of_long {ds : List Char} (h : maxDigits < ds.length) (a : α) :
    unlessLong (ds :: numbers) a = .error (.unread ds.length) := by
  rw [unlessLong, List.find?_cons_of_pos (by simpa using h)]

theorem unlessLong_cons_of_short {ds : List Char} (h : ds.length ≤ maxDigits) (a : α) :
    unlessLong (ds :: numbers) a = unlessLong numbers a := by
  rw [unlessLong, List.find?_cons_of_neg (by simpa using h), unlessLong]

theorem unlessLong_append (a : α) :
    unlessLong (numbers ++ others) a = unlessLong numbers () >>= fun _ => unlessLong others a := by
  induction numbers with
  | nil => rfl
  | cons ds numbers ih =>
    by_cases hlong : maxDigits < ds.length
    · rw [List.cons_append, unlessLong_cons_of_long hlong, unlessLong_cons_of_long hlong]
      rfl
    · have hshort := Nat.le_of_not_lt hlong
      rw [List.cons_append, unlessLong_cons_of_short hshort, unlessLong_cons_of_short hshort, ih]

theorem unlessLong_bind_eq {a : α} {f : α → Except Fault β} :
    unlessLong numbers a >>= f = unlessLong numbers () >>= fun _ => f a := by
  unfold unlessLong
  split <;> rfl

theorem unlessLong_bind {a : α} {b : β} {f : α → Except Fault β}
    (h : f a = unlessLong others b) : unlessLong numbers a >>= f = unlessLong (numbers ++ others) b := by
  rw [unlessLong_append, ← h, unlessLong_bind_eq]

theorem map_unlessLong (a : α) (f : α → β) :
    (unlessLong numbers a).map f = unlessLong numbers (f a) := by
  unfold unlessLong
  split <;> rfl

theorem unlessLong_eq_ok_iff {a b : α} :
    unlessLong numbers a = .ok b ↔ (∀ ds ∈ numbers, ds.length ≤ maxDigits) ∧ a = b := by
  unfold unlessLong
  split
  · next h => simpa using fun _ => h
  · next ds h =>
    have hlong : maxDigits < ds.length := by simpa using List.find?_some h
    simpa using fun hall => absurd (hall ds (List.mem_of_find?_eq_some h)) (by omega)

theorem unlessLong_eq_error_iff {a : α} {fault : Fault} :
    unlessLong numbers a = .error fault ↔
      ∃ before ds after, numbers = before ++ ds :: after ∧ (∀ es ∈ before, es.length ≤ maxDigits) ∧
        maxDigits < ds.length ∧ fault = .unread ds.length := by
  unfold unlessLong
  split
  · next h =>
    have hall : ∀ ds ∈ numbers, ds.length ≤ maxDigits := by simpa using h
    refine ⟨nofun, fun hsplit => ?_⟩
    obtain ⟨before, ds, after, rfl, -, hlong, -⟩ := hsplit
    exact absurd (hall ds (by simp)) (by omega)
  · next ds h =>
    obtain ⟨hlong, before, after, hsplit, hbefore⟩ := List.find?_eq_some_iff_append.mp h
    have hshort : ∀ es ∈ before, es.length ≤ maxDigits := by simpa using hbefore
    constructor
    · rintro ⟨⟩
      exact ⟨before, ds, after, hsplit, hshort, by simpa using hlong, rfl⟩
    · rintro ⟨front, es, back, rfl, hfront, hes, rfl⟩
      have hfirst : (front ++ es :: back).find? (fun ds => decide (maxDigits < ds.length)) =
          some es := by
        rw [List.find?_append, List.find?_eq_none.mpr (by simpa using hfront),
          List.find?_cons_of_pos (by simpa using hes)]
        rfl
      rw [hfirst] at h
      cases h
      rfl

end unlessLong

theorem readNumber_eq (ds : List Char) : readNumber ds = unlessLong [ds] (decimalValue ds) := by
  unfold readNumber
  split
  · next h => rw [unlessLong_cons_of_short h, unlessLong_nil]
  · next h => rw [unlessLong_cons_of_long (by omega)]

theorem readPositionNumber_eq (position : Option (List Char)) :
    readPositionNumber position = unlessLong position.toList (position.map decimalValue) := by
  cases position with
  | none => rfl
  | some ds =>
    rw [readPositionNumber, readNumber_eq, map_unlessLong]
    rfl

theorem Extent.read_eq (e : Option Extent) :
    Extent.read e = unlessLong (Extent.numbers e) (dimensionOf e) := by
  cases e with
  | none => rfl
  | some e =>
    cases e with
    | digits ds =>
      rw [Extent.read, readNumber_eq, map_unlessLong]
      rfl
    | star position =>
      rw [Extent.read, readPositionNumber_eq, map_unlessLong]
      rfl

theorem Spelling.read_eq (s : Spelling) : s.read = unlessLong s.numbers s.fields := by
  have hnumbers : s.numbers =
      s.position.toList ++ (Extent.numbers s.width ++ (Extent.numbers s.precision ++ [])) := by
    rw [numbers, List.append_nil, List.append_assoc]
  rw [read, readPositionNumber_eq, Extent.read_eq, Extent.read_eq, hnumbers]
  exact unlessLong_bind (unlessLong_bind (unlessLong_bind rfl))

theorem Found.read_eq (f : Found) : f.read = unlessLong f.spelling.numbers f.specifier := by
  rw [read, Spelling.read_eq, map_unlessLong]
  rfl

theorem mapM_read (found : List Found) :
    found.mapM Found.read = unlessLong (numbersOf found) (found.map Found.specifier) := by
  induction found with
  | nil => rfl
  | cons f found ih =>
    have hnumbers : numbersOf (f :: found) = f.spelling.numbers ++ (numbersOf found ++ []) := by
      rw [List.append_nil]
      rfl
    rw [List.mapM_cons, Found.read_eq, ih, hnumbers]
    exact unlessLong_bind (unlessLong_bind rfl)

theorem specifiers_eq (text : String) :
    specifiers text = unlessLong (numbersOf (scanFrom 0 text.toList))
      ((scanFrom 0 text.toList).map Found.specifier) :=
  mapM_read _

end LocaleAccessors.Format
