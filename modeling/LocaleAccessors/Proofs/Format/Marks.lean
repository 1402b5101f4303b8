import LocaleAccessors.Proofs.Format.Numbers
import LocaleAccessors.Proofs.Format.Unambiguous

/-!
The scan from left to right. Its marks lie one behind the other, each says what its part of the text
is, and no specifier and no doubled percent sign begins outside of them.
-/

namespace LocaleAccessors.Format
open Text (decimalValue maxDigits one_le_decimalValue)

structure Marked (text : List Char) (offset : Nat) (marks : List Mark) : Prop where
  apart : marks.Pairwise fun a b => a.stop ≤ b.start
  from_offset : ∀ m ∈ marks, offset ≤ m.start
  stands : ∀ m ∈ marks, m.Stands text
  covers : ∀ i, offset ≤ i → Opens (text.drop i) → ∃ m ∈ marks, m.start ≤ i ∧ i < m.stop

theorem not_opens_nil : ¬ Opens [] := by
  rintro (⟨rest, h⟩ | ⟨s, rest, -, h⟩) <;> cases h

theorem Opens.head {c : Char} {rest : List Char} (h : Opens (c :: rest)) : c = '%' := by
  rcases h with ⟨more, h⟩ | ⟨s, more, -, h⟩ <;> exact (List.cons.inj h).1

theorem readSpelling_of_opens {following : List Char} (h : Opens ('%' :: following))
    (hd : ∀ rest, following ≠ '%' :: rest) : readSpelling following ≠ none := by
  rcases h with ⟨rest, h⟩ | ⟨s, rest, hs, h⟩
  · exact absurd (List.cons.inj h).2 (hd rest)
  · rw [(List.cons.inj h).2, Spelling.readSpelling_of_valid hs]
    nofun

theorem Marked.nil {text : List Char} {offset : Nat} (h : text.drop offset = []) :
    Marked text offset [] where
  apart := .nil
  from_offset := List.forall_mem_nil _
  stands := List.forall_mem_nil _
  covers := by
    intro i hi ho
    rw [← Nat.add_sub_of_le hi, ← List.drop_drop, h, List.drop_nil] at ho
    exact absurd ho not_opens_nil

theorem Marked.cons {text : List Char} {offset : Nat} {m : Mark} {marks : List Mark}
    (hstart : m.start = offset) (hm : m.Stands text) (hlt : offset < m.stop)
    (h : Marked text m.stop marks) : Marked text offset (m :: marks) where
  apart := List.pairwise_cons.mpr ⟨h.from_offset, h.apart⟩
  from_offset := by
    rintro n (_ | ⟨_, hn⟩)
    · exact hstart.ge
    · exact hlt.le.trans (h.from_offset n hn)
  stands := by
    rintro n (_ | ⟨_, hn⟩)
    · exact hm
    · exact h.stands n hn
  covers := by
    intro i hi ho
    by_cases hs : i < m.stop
    · exact ⟨m, by simp, by omega, hs⟩
    · obtain ⟨n, hn, hin⟩ := h.covers i (by omega) ho
      exact ⟨n, List.mem_cons_of_mem m hn, hin⟩

theorem Marked.skip {text : List Char} {offset : Nat} {marks : List Mark}
    (hn : ¬ Opens (text.drop offset)) (h : Marked text (offset + 1) marks) :
    Marked text offset marks where
  apart := h.apart
  from_offset := fun m hm => Nat.le_of_succ_le (h.from_offset m hm)
  stands := h.stands
  covers := by
    intro i hi ho
    have hne : i ≠ offset := by
      rintro rfl
      exact hn ho
    exact h.covers i (by omega) ho

theorem drop_of_append {text rest : List Char} {offset : Nat} (cs : List Char)
    (h : text.drop offset = cs ++ rest) : text.drop (offset + cs.length) = rest := by
  rw [← List.drop_drop, h, List.drop_left]

theorem exists_marks (text : List Char) (offset : Nat) (cs : List Char)
    (hcs : text.drop offset = cs) :
    ∃ marks, marks.filterMap Mark.found? = scanFrom offset cs ∧ Marked text offset marks := by
  fun_induction scanFrom offset cs with
  | case1 offset => exact ⟨[], List.filterMap_nil, .nil hcs⟩
  | case2 offset rest ih =>
    obtain ⟨marks, heq, hm⟩ := ih (drop_of_append ['%', '%'] hcs)
    have hstands : (Mark.doubled offset).Stands text := ⟨rest, hcs.symm⟩
    exact ⟨.doubled offset :: marks, heq, .cons rfl hstands (Nat.lt_add_of_pos_right (by decide)) hm⟩
  | case3 offset following hd s rest hread length ih =>
    obtain ⟨hs, hn, rfl⟩ := spelling_of_readSpelling hread
    have hlength : length = ('%' :: s.chars).length := by
      simp only [length, List.length_append, List.length_cons]
      omega
    have htake : ('%' :: (s.chars ++ rest)).take length = '%' :: s.chars := by
      rw [hlength, ← List.cons_append, List.take_left]
    rw [hlength] at ih
    obtain ⟨marks, heq, hm⟩ := ih (drop_of_append ('%' :: s.chars) hcs)
    let m : Mark := .found ⟨s, String.ofList ('%' :: s.chars), offset⟩
    have hstands : m.Stands text := by
      refine ⟨⟨rest, ?_⟩, hs, hn, String.toList_ofList⟩
      rw [String.toList_ofList]
      exact hcs.symm
    have hstop : m.stop = offset + ('%' :: s.chars).length := by
      simp only [m, Mark.stop, String.toList_ofList]
    have hlt : offset < m.stop := by
      rw [hstop, List.length_cons]
      omega
    refine ⟨m :: marks, ?_, .cons rfl hstands hlt (hstop ▸ hm)⟩
    rw [htake, hlength, ← heq]
    rfl
  | case4 offset following hd hread ih =>
    obtain ⟨marks, heq, hm⟩ := ih (drop_of_append ['%'] hcs)
    refine ⟨marks, heq, hm.skip fun ho => ?_⟩
    rw [hcs] at ho
    exact readSpelling_of_opens ho (fun rest h => hd rest h) hread
  | case5 offset c rest _ hc ih =>
    obtain ⟨marks, heq, hm⟩ := ih (drop_of_append [c] hcs)
    refine ⟨marks, heq, hm.skip fun ho => ?_⟩
    rw [hcs] at ho
    exact hc ho.head

theorem IsPosition.one_le {ds : List Char} (h : IsPosition ds) : 1 ≤ decimalValue ds :=
  one_le_decimalValue h.1 h.2.1 h.2.2

theorem Extent.one_le {e : Extent} (h : e.Valid) {p : Nat} (hp : e.dimension = .star (some p)) :
    1 ≤ p := by
  cases e with
  | digits ds => cases hp
  | star position =>
    simp only [dimension, Dimension.star.injEq, Option.map_eq_some_iff] at hp
    obtain ⟨ds, hds, rfl⟩ := hp
    exact (h ds hds).one_le

theorem one_le_of_dimensionOf {e : Option Extent} (h : ∀ f ∈ e, f.Valid) {p : Nat}
    (hp : dimensionOf e = .star (some p)) : 1 ≤ p := by
  cases e with
  | none => cases hp
  | some f => exact Extent.one_le (h f rfl) hp

theorem positive_of_spelling {d : Spelling} (h : d.Valid) {s : Specifier} (hs : s.toFields = d.fields) :
    s.Positive where
  position := by
    intro p hp
    rw [hs] at hp
    obtain ⟨ds, hds, rfl⟩ := Option.map_eq_some_iff.mp hp
    exact (h.position ds hds).one_le
  width := by
    intro p hp
    rw [hs] at hp
    exact one_le_of_dimensionOf (fun e he => (h.width e he).1) hp
  precision := by
    intro p hp
    rw [hs] at hp
    exact one_le_of_dimensionOf h.precision hp

theorem literal_width_pos {s : Specifier} {d : Spelling} (h : d.Valid) (hn : d.Normal)
    (hs : s.toFields = d.fields) {w : Nat} (hw : s.width = .literal w) : 1 ≤ w := by
  rw [hs] at hw
  simp only [Spelling.fields] at hw
  cases hd : d.width with
  | none => rw [hd] at hw; cases hw
  | some e =>
    rw [hd] at hw
    obtain ⟨hv, hne⟩ := h.width e hd
    cases e with
    | star position => cases hw
    | digits ds =>
      cases hw
      exact one_le_decimalValue (fun h => hne (h ▸ rfl)) hv (hn ds hd)

theorem spelling_of_mem_scan (text : String) {f : Found} (h : f ∈ scanFrom 0 text.toList) :
    f.spelling.Valid ∧ f.spelling.Normal := by
  obtain ⟨marks, heq, hm⟩ := exists_marks text.toList 0 text.toList rfl
  rw [← heq, List.mem_filterMap] at h
  obtain ⟨m, hmem, hfound⟩ := h
  cases m with
  | doubled start => cases hfound
  | found g =>
    cases hfound
    obtain ⟨-, hvalid, hnormal, -⟩ := hm.stands _ hmem
    exact ⟨hvalid, hnormal⟩

theorem exists_spelling {text : String} {found : List Specifier} (h : specifiers text = .ok found)
    {s : Specifier} (hs : s ∈ found) :
    ∃ d : Spelling, d.Valid ∧ d.Normal ∧ (∀ ds ∈ d.numbers, ds.length ≤ maxDigits) ∧
      s.toFields = d.fields := by
  rw [specifiers_eq, unlessLong_eq_ok_iff] at h
  obtain ⟨hshort, rfl⟩ := h
  obtain ⟨f, hf, rfl⟩ := List.mem_map.mp hs
  obtain ⟨hvalid, hnormal⟩ := spelling_of_mem_scan text hf
  exact ⟨f.spelling, hvalid, hnormal, fun ds hds => hshort ds (List.mem_flatMap.mpr ⟨f, hf, hds⟩), rfl⟩

theorem positive_of_mem_specifiers {text : String} {found : List Specifier}
    (h : specifiers text = .ok found) {s : Specifier} (hs : s ∈ found) : s.Positive := by
  obtain ⟨d, hd, -, -, hfields⟩ := exists_spelling h hs
  exact positive_of_spelling hd hfields

/-- The scan finds exactly the specifiers of the grammar. At every place at most one thing can be
derived; the marks are disjoint and ascend, and each says what its text is; what lies outside of
them derives nothing. Each found spelling has its meaning, unless a number of one of them is too long:
then the first such number ends the reading. -/
theorem specifiers_exact (text : String) :
    (∀ (i : Nat) (d e : Spelling) (rest other : List Char), d.Valid → e.Valid →
      text.toList.drop i = '%' :: (d.chars ++ rest) →
      text.toList.drop i = '%' :: (e.chars ++ other) →
      d.chars = e.chars ∧ d.normal = e.normal) ∧
    (∃ marks : List Mark,
      specifiers text = unlessLong (numbersOf (marks.filterMap Mark.found?))
        ((marks.filterMap Mark.found?).map Found.specifier) ∧
      (∀ m ∈ marks, m.Stands text.toList) ∧
      marks.Pairwise (fun a b => a.stop ≤ b.start) ∧
      ∀ i, (∀ m ∈ marks, ¬ (m.start ≤ i ∧ i < m.stop)) → ¬ Opens (text.toList.drop i)) ∧
    ∀ found, specifiers text = .ok found →
      ∀ s ∈ found, s.Positive ∧ ∀ w, s.width = .literal w → 1 ≤ w := by
  refine ⟨?_, ?_, ?_⟩
  · intro i d e rest other hd he h1 h2
    rw [h1] at h2
    exact Spelling.unambiguous hd he (List.cons.inj h2).2
  · obtain ⟨marks, heq, hm⟩ := exists_marks text.toList 0 text.toList rfl
    refine ⟨marks, by rw [specifiers_eq, heq], hm.stands, hm.apart, fun i hi ho => ?_⟩
    obtain ⟨m, hmem, hin⟩ := hm.covers i (Nat.zero_le i) ho
    exact hi m hmem hin
  · intro found h s hs
    obtain ⟨d, hd, hn, -, hfields⟩ := exists_spelling h hs
    exact ⟨positive_of_spelling hd hfields, fun w hw => literal_width_pos hd hn hfields hw⟩

/-- A width with more digits than are read. -/
def longWidth : Spelling :=
  ⟨none, [], some (.digits (List.replicate 4301 '1')), none, none, .decimal⟩

theorem longWidth_valid : longWidth.Valid := by
  refine ⟨nofun, List.forall_mem_nil _, ?_, nofun⟩
  rintro _ ⟨⟩
  refine ⟨fun d hd => ?_, fun h => ?_⟩
  · rw [List.eq_of_mem_replicate hd]
    decide
  · exact absurd ((List.replicate_eq_nil_iff _).mp (Extent.digits.inj h)) (by decide)

theorem longWidth_normal : longWidth.Normal := by
  rintro _ ⟨⟩
  rw [List.head?_replicate]
  decide

theorem specifiers_longWidth :
    specifiers (String.ofList ('%' :: longWidth.chars)) = .error (.unread 4301) := by
  have hlong : maxDigits < (List.replicate 4301 '1').length := by
    rw [List.length_replicate]
    decide
  have hscan := scanFrom_specifier 0 [] longWidth_valid longWidth_normal
  rw [List.append_nil] at hscan
  rw [specifiers_eq, String.toList_ofList, hscan]
  exact (unlessLong_cons_of_long hlong _).trans (by rw [List.length_replicate])

/-- A text that is one specifier of the grammar, of which nothing is found. -/
theorem long_width_not_found :
    longWidth.Valid ∧ longWidth.Normal ∧
      specifiers (String.ofList ('%' :: longWidth.chars)) = .error (.unread 4301) :=
  ⟨longWidth_valid, longWidth_normal, specifiers_longWidth⟩

end LocaleAccessors.Format
