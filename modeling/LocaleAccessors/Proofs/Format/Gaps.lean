import LocaleAccessors.Proofs.Format.Inference

/-!
The report of a gap. It lists the first ten positions below the highest one that no specifier takes, and
tells how many there are in all.
-/

namespace LocaleAccessors.Format
open Text (maxDigits)

/-! Numbers that an ascending list leaves out. -/

section leftOut
variable {ks : List Nat} {expected last : Nat}

def leftOut (expected last : Nat) (ks : List Nat) : List Nat :=
  (List.range' expected (last + 1 - expected)).filter (· ∉ ks)

theorem leftOut_cons {k : Nat} (hle : expected ≤ k) (hlast : k ≤ last) (hks : ∀ m ∈ ks, k < m) :
    leftOut expected last (k :: ks) =
      List.range' expected (k - expected) ++ leftOut (k + 1) last ks := by
  have hrange : List.range' expected (last + 1 - expected) =
      List.range' expected (k - expected) ++ k :: List.range' (k + 1) (last + 1 - (k + 1)) := by
    have hlength : last + 1 - expected = k - expected + (last + 1 - (k + 1) + 1) := by omega
    have hstart : expected + (k - expected) = k := by omega
    rw [hlength, ← List.range'_append_1, hstart, List.range'_succ]
  rw [leftOut, hrange, List.filter_append, List.filter_cons_of_neg (by simp), leftOut]
  congr 1
  · refine List.filter_eq_self.mpr fun m hm => ?_
    rw [List.mem_range'_1] at hm
    have hnot : m ∉ k :: ks := by
      rintro (_ | ⟨_, hmem⟩)
      · omega
      · have hgt := hks m hmem
        omega
    simpa using hnot
  · refine List.filter_congr fun m hm => ?_
    rw [List.mem_range'_1] at hm
    have hne : m ≠ k := by omega
    simp [hne]

theorem firstGaps_eq (limit : Nat) (h : ks.Pairwise (· < ·)) (hge : ∀ k ∈ ks, expected ≤ k)
    (hlast : ks.getLast? = some last) :
    firstGaps limit expected ks = (leftOut expected last ks).take limit := by
  induction ks generalizing limit expected with
  | nil => cases hlast
  | cons k ks ih =>
    obtain ⟨hk, hks⟩ := List.pairwise_cons.mp h
    have hle : k ≤ last := (le_last_of_ascending h hlast).2 k List.mem_cons_self
    have hhere : List.range' expected (min limit (k - expected)) =
        (List.range' expected (k - expected)).take limit := by
      rcases Nat.le_total limit (k - expected) with hlimit | hlimit
      · rw [List.take_range'_of_length_ge hlimit, Nat.min_eq_left hlimit]
      · rw [List.take_of_length_le (by simpa using hlimit), Nat.min_eq_right hlimit]
    have hmore : firstGaps (limit - min limit (k - expected)) (k + 1) ks =
        (leftOut (k + 1) last ks).take (limit - (k - expected)) := by
      have hsub : limit - min limit (k - expected) = limit - (k - expected) := by omega
      rw [hsub]
      cases ks with
      | nil =>
        cases hlast
        simp [firstGaps, leftOut]
      | cons m ks =>
        rw [List.getLast?_cons_cons] at hlast
        exact ih _ hks (fun m hm => hk m hm) hlast
    rw [firstGaps, leftOut_cons (hge k List.mem_cons_self) hle hk, List.take_append,
      List.length_range']
    exact congrArg₂ _ hhere hmore

theorem length_leftOut (h : ks.Pairwise (· < ·)) (hge : ∀ k ∈ ks, 1 ≤ k)
    (hlast : ks.getLast? = some last) : (leftOut 1 last ks).length + ks.length = last := by
  have hkept : (List.range' 1 last).filter (· ∈ ks) = ks := by
    refine ((List.pairwise_lt_range' 1).filter _).eq_of_mem_iff h fun k => ?_
    rw [List.mem_filter, List.mem_range'_1, decide_eq_true_eq]
    refine ⟨fun hk => hk.2, fun hk => ⟨⟨hge k hk, ?_⟩, hk⟩⟩
    have hle := (le_last_of_ascending h hlast).2 k hk
    omega
  have hsplit := List.length_eq_length_filter_add (l := List.range' 1 last) (fun k => decide (k ∈ ks))
  rw [hkept, List.length_range'] at hsplit
  simp only [leftOut, decide_not, Nat.add_sub_cancel]
  omega

end leftOut

def Dimension.positions : Dimension → List Nat
  | .star (some p) => [p]
  | _ => []

def Specifier.positions (s : Specifier) : List Nat :=
  s.position.toList ++ s.width.positions ++ s.precision.positions

def usedPositions (found : List Specifier) : List Nat :=
  found.flatMap Specifier.positions

/-- The positions from one to the highest used one that are not used, in order. -/
def missingPositions (found : List Specifier) : List Nat :=
  (List.range' 1 ((usedPositions found).max?.getD 0)).filter (· ∉ usedPositions found)

/-- Nothing is wrong with the specifiers but that they leave positions out. -/
structure OnlyGaps (found : List Specifier) : Prop where
  positive : ∀ s ∈ found, s.Positive
  numbered : ∀ s ∈ found, s.Numbered
  agree : ∀ s ∈ found, ∀ t ∈ found, ∀ {p a b r q}, s.Takes p a r → t.Takes p b q → a = b
  gap : missingPositions found ≠ []

theorem Dimension.mem_positions {dimension : Dimension} {p : Nat} :
    p ∈ dimension.positions ↔ dimension = .star (some p) := by
  unfold positions
  split
  · simp [eq_comm]
  · rename_i hno
    simpa using fun h => hno p h

theorem Specifier.mem_positions {s : Specifier} {p : Nat} :
    p ∈ s.positions ↔ ∃ type role, s.Takes p type role := by
  simp only [positions, List.mem_append, Dimension.mem_positions, Option.mem_toList]
  constructor
  · rintro ((h | h) | h)
    · exact ⟨_, _, .value h⟩
    · exact ⟨_, _, .width h⟩
    · exact ⟨_, _, .precision h⟩
  · rintro ⟨type, role, h⟩
    cases h with
    | value h => exact .inl (.inl h)
    | width h => exact .inl (.inr h)
    | precision h => exact .inr h

theorem SlotMap.Sums.mem_iff_used {found : List Specifier} {uses : List Use} {slots : SlotMap}
    (hs : slots.Sums uses) (h : found.flatMap Specifier.uses = uses.map .ok) (p : Nat) :
    p ∈ slots.map Prod.fst ↔ p ∈ usedPositions found := by
  simp only [hs.used_iff h, usedPositions, List.mem_flatMap, Specifier.mem_positions]

theorem missingPositions_eq {found : List Specifier} {ks : List Nat} {last : Nat}
    (h : ks.Pairwise (· < ·)) (hmem : ∀ p, p ∈ ks ↔ p ∈ usedPositions found)
    (hlast : ks.getLast? = some last) : missingPositions found = leftOut 1 last ks := by
  obtain ⟨hin, hle⟩ := le_last_of_ascending h hlast
  have hmax : (usedPositions found).max? = some last :=
    List.max?_eq_some_iff.mpr ⟨(hmem last).mp hin, fun p hp => hle p ((hmem p).mpr hp)⟩
  simp only [missingPositions, hmax, Option.getD_some, leftOut, hmem, Nat.add_sub_cancel]

namespace OnlyGaps
variable {found : List Specifier}

theorem of_uses {uses : List Use} (hpositive : ∀ s ∈ found, s.Positive)
    (h : found.flatMap Specifier.uses = uses.map .ok) (hagree : Agree uses)
    (hgap : missingPositions found ≠ []) : OnlyGaps found :=
  ⟨hpositive, numbered_of_uses h, fun _ hs _ ht _ _ _ _ _ => hagree.takes h hs ht, hgap⟩

theorem exists_slots (h : OnlyGaps found) :
    ∃ (uses : List Use) (slots : SlotMap), found.flatMap Specifier.uses = uses.map .ok ∧
      SlotMap.addAll [] (found.flatMap Specifier.uses) = .ok slots ∧ slots.Sums uses := by
  rcases SlotMap.Sums.nil.addAll (found.flatMap Specifier.uses) with
    ⟨uses, slots, hitems, hall, hsums⟩ | ⟨uses, item, rest, fault, hitems, -, hoffence, -⟩
  · exact ⟨uses, slots, hitems, hall, hsums⟩
  · obtain ⟨-, ⟨s, hs, hnot⟩ | ⟨s, hs, t, ht, p, a, b, r, q, hsa, htb, hne⟩⟩ :=
      hoffence.exists_specifier hitems
    · exact absurd (h.numbered s hs) hnot
    · exact absurd (h.agree s hs t ht hsa htb) hne

theorem exists_first (h : OnlyGaps found) :
    ∃ first rest p, found = first :: rest ∧ first.position = some p := by
  cases found with
  | nil => exact absurd rfl h.gap
  | cons first rest =>
    obtain ⟨p, hp⟩ := Option.ne_none_iff_exists'.mp (h.numbered first List.mem_cons_self).position
    exact ⟨first, rest, p, rfl, hp⟩

theorem numberedSlots_eq (h : OnlyGaps found) :
    numberedSlots found = .error
      (.sparse ((missingPositions found).take Fault.maxListed) (missingPositions found).length) := by
  obtain ⟨uses, slots, hitems, hall, hsums⟩ := h.exists_slots
  have hone := hsums.one_le hitems h.positive
  have hascending := hsums.ascending
  have hmem := hsums.mem_iff_used hitems
  have hlength : (slots.map Prod.fst).length = slots.length := List.length_map _
  rw [numberedSlots, hall]
  cases hlast : (slots.map Prod.fst).getLast? with
  | none =>
    have hempty : usedPositions found = [] := by
      rw [List.getLast?_eq_none_iff] at hlast
      exact List.eq_nil_iff_forall_not_mem.mpr fun p hp => by simpa [hlast] using (hmem p).mpr hp
    exact absurd (by rw [missingPositions, hempty]; rfl) h.gap
  | some last =>
    have hmissing := missingPositions_eq hascending hmem hlast
    have hcount := length_leftOut hascending hone hlast
    rcases SlotMap.dense_cases hascending hone with ⟨hrange, -⟩ | ⟨-, hdense⟩
    · have hgap := hmissing ▸ h.gap
      have hlast' := (length_eq_last_iff hascending hone).mpr (by rw [hlength]; exact hrange)
      rw [hlast, Option.getD_some] at hlast'
      exact absurd (List.length_eq_zero_iff.mp (by omega)) hgap
    · rw [hlast, Option.getD_some] at hdense
      refine hdense.trans ?_
      rw [firstGaps_eq _ hascending hone hlast, ← hmissing]
      have hdifference : (last : Int) - slots.length = (missingPositions found).length := by
        rw [hmissing]
        omega
      rw [hdifference]

end OnlyGaps

theorem Fault.message_sparse (missing : List Nat) (count : Int) :
    (Fault.sparse missing count).message =
      "Argument positions are not contiguous; missing " ++
        ", ".intercalate (missing.map toString) ++
        (if 0 < count - missing.length then " and " ++ toString (count - missing.length) ++ " more"
          else "") :=
  rfl

theorem message_of_first_ten (missing : List Nat) :
    (Fault.sparse (missing.take 10) missing.length).message =
      "Argument positions are not contiguous; missing " ++
        ", ".intercalate ((missing.take 10).map toString) ++
        (if 10 < missing.length then " and " ++ toString (missing.length - 10) ++ " more"
          else "") := by
  have hmore : (missing.length : Int) - (missing.take 10).length = ↑(missing.length - 10) := by
    rw [List.length_take]
    omega
  have htext : toString (↑(missing.length - 10) : Int) = toString (missing.length - 10) := rfl
  have hten : (0 : Int) < ↑(missing.length - 10) ↔ 10 < missing.length := by omega
  rw [Fault.message_sparse, hmore, htext, if_congr hten rfl rfl]

/-- The missing positions that are listed can be spelled, and so can the number of the others. -/
def Spellable (missing : List Nat) : Prop :=
  (∀ p ∈ missing.take 10, p < 10 ^ maxDigits) ∧ missing.length - 10 < 10 ^ maxDigits

theorem isSpelled_sparse_iff (missing : List Nat) :
    (Fault.sparse (missing.take 10) missing.length).isSpelled ↔ Spellable missing := by
  have hmore : (missing.length : Int) - (missing.take 10).length = ↑(missing.length - 10) := by
    rw [List.length_take]
    omega
  have hpos : 0 < 10 ^ maxDigits := Nat.pow_pos (by decide)
  rw [Fault.isSpelled_iff, Fault.numbers, hmore, Spellable]
  generalize 10 ^ maxDigits = limit at *
  rw [List.forall_mem_append, List.forall_mem_map]
  refine and_congr (forall₂_congr fun p _ => ?_) ?_
  · rw [Int.ofNat_eq_natCast, Int.ofNat_lt]
  · split
    · rw [List.forall_mem_singleton, Int.ofNat_lt]
    · refine iff_of_true (List.forall_mem_nil _) ?_
      omega

theorem OnlyGaps.infer_eq {found : List Specifier} (h : OnlyGaps found) :
    infer found = .error (Fault.sparse ((missingPositions found).take Fault.maxListed)
      (missingPositions found).length).raised := by
  obtain ⟨first, rest, p, rfl, hp⟩ := h.exists_first
  refine infer_of_fault ?_
  rw [slotsOf_numbered rest hp, h.numberedSlots_eq]
  rfl

theorem OnlyGaps.infer_of_unspellable {found : List Specifier} (h : OnlyGaps found)
    (hlong : ¬ Spellable (missingPositions found)) : infer found = .error .unspelled := by
  have hraised : infer found = .error (Fault.sparse ((missingPositions found).take 10)
    (missingPositions found).length).raised := h.infer_eq
  rwa [Fault.raised, if_neg (mt (isSpelled_sparse_iff _).mp hlong)] at hraised

/-- Specifiers that only leave positions out are refused with the first ten of these, in order, and
with their number. The message lists the ten and tells how many more there are, if there are more;
where one of these numbers is too long to be spelled, the refusal says just that. -/
theorem gap_reported {found : List Specifier} (h : OnlyGaps found) :
    let missing := missingPositions found
    (Spellable missing →
      infer found = .error (.sparse (missing.take 10) missing.length) ∧
        (Fault.sparse (missing.take 10) missing.length).message =
          "Argument positions are not contiguous; missing " ++
            ", ".intercalate ((missing.take 10).map toString) ++
            (if 10 < missing.length then " and " ++ toString (missing.length - 10) ++ " more"
              else "")) ∧
      (¬ Spellable missing → infer found = .error .unspelled) := by
  intro missing
  refine ⟨fun hspellable => ⟨?_, message_of_first_ten missing⟩, h.infer_of_unspellable⟩
  have hraised : infer found =
      .error (Fault.sparse (missing.take 10) missing.length).raised := h.infer_eq
  rwa [Fault.raised, if_pos ((isSpelled_sparse_iff missing).mpr hspellable)] at hraised

/-- The list goes on behind the first used position and ends before the last missing one. -/
theorem gap_reported_behind_first_use :
    ∃ found, specifiers "%9$*13$d %13$d" = .ok found ∧ OnlyGaps found ∧
      infer found = .error (.sparse [1, 2, 3, 4, 5, 6, 7, 8, 10, 11] 11) ∧
      (Fault.sparse [1, 2, 3, 4, 5, 6, 7, 8, 10, 11] 11).message =
        "Argument positions are not contiguous; missing 1, 2, 3, 4, 5, 6, 7, 8, 10, 11 and 1 more" := by
  obtain ⟨found, hfound, huses, hmissing⟩ : ∃ found, specifiers "%9$*13$d %13$d" = .ok found ∧
      found.flatMap Specifier.uses =
        [⟨13, .int, .width, 9⟩, ⟨9, .int, .value, 9⟩, ⟨13, .int, .value, 13⟩].map Except.ok ∧
      missingPositions found = [1, 2, 3, 4, 5, 6, 7, 8, 10, 11, 12] :=
    ⟨[{ position := some 9, width := .star (some 13), conversion := .decimal, text := "%9$*13$d" },
      { position := some 13, conversion := .decimal, text := "%13$d", start := 9 }],
      by decide +kernel, by decide +kernel, by decide +kernel⟩
  have honly : OnlyGaps found := by
    refine .of_uses (fun s hs => positive_of_mem_specifiers hfound hs) huses ?_ ?_
    · unfold Agree
      decide
    · rw [hmissing]
      exact List.cons_ne_nil _ _
  have hspellable : Spellable (missingPositions found) := by
    rw [hmissing]
    unfold Spellable
    decide +kernel
  obtain ⟨hinfer, hmessage⟩ := (gap_reported honly).1 hspellable
  rw [hmissing] at hinfer hmessage
  refine ⟨found, hfound, honly, hinfer, hmessage.trans ?_⟩
  decide +kernel

def decimalAt (position : Nat) : Specifier :=
  { position := some position, conversion := .decimal }

theorem missingPositions_decimalAt {p : Nat} (h : 1 ≤ p) :
    (missingPositions [decimalAt p]).length = p - 1 := by
  have hmissing : missingPositions [decimalAt p] = leftOut 1 p [p] :=
    missingPositions_eq (List.pairwise_singleton _ _) (fun _ => Iff.rfl) rfl
  have hlength : (leftOut 1 p [p]).length + 1 = p :=
    length_leftOut (List.pairwise_singleton _ _) (List.forall_mem_singleton.mpr h) rfl
  rw [hmissing]
  omega

theorem onlyGaps_decimalAt {p : Nat} (h : 1 < p) : OnlyGaps [decimalAt p] := by
  have huses : [decimalAt p].flatMap Specifier.uses = [⟨p, .int, .value, p⟩].map Except.ok := rfl
  refine .of_uses ?_ huses ?_ ?_
  · refine List.forall_mem_singleton.mpr ⟨?_, nofun, nofun⟩
    rintro _ ⟨⟩
    exact h.le
  · unfold Agree
    simp
  · have hlength := missingPositions_decimalAt h.le
    exact List.ne_nil_of_length_pos (by omega)

/-- The position zero takes a missing one off the count, though not off the list; and where ten
positions are listed and the number of the others is too long, there is no report. -/
theorem gap_misreported :
    (missingPositions [decimalAt 0, decimalAt 3] = [1, 2] ∧
      infer [decimalAt 0, decimalAt 3] = .error (.sparse [1, 2] 1)) ∧
    OnlyGaps [decimalAt (10 ^ maxDigits + 11)] ∧
      infer [decimalAt (10 ^ maxDigits + 11)] = .error .unspelled := by
  have hpos : 0 < 10 ^ maxDigits := Nat.pow_pos (by decide)
  refine ⟨by decide +kernel, ?_⟩
  have honly : OnlyGaps [decimalAt (10 ^ maxDigits + 11)] := onlyGaps_decimalAt (by omega)
  refine ⟨honly, honly.infer_of_unspellable fun hspellable => ?_⟩
  have hlength := missingPositions_decimalAt (p := 10 ^ maxDigits + 11) (by omega)
  have hmore := hspellable.2
  omega

end LocaleAccessors.Format
