import LocaleAccessors.Proofs.Format.Inference

/-!
The fault of a translation is the first offence in it. Its specifiers are read from left to right, and in
each of them the numbering, the width, the precision and the value. A reference offends that does not
fit the first specifier, and so does a use of a position that has another type than the earliest one. Only
where nothing offends can a gap be the fault.
-/

namespace LocaleAccessors.Format

/-- What is seen while specifiers are read: a reference, which may name a position, and a use of a
position. -/
inductive Sight where
  | reference (text : String) (position : Option Nat)
  | use (position : Nat) (type : ValueType)
  deriving DecidableEq

def starSights (text : String) : Dimension → List Sight
  | .star position => .reference text position :: position.toList.map (.use · .int)
  | _ => []

def Specifier.sights (s : Specifier) : List Sight :=
  .reference s.text s.position ::
    (starSights s.text s.width ++ starSights s.text s.precision ++
      s.position.toList.map (.use · s.valueType))

def sights (found : List Specifier) : List Sight :=
  found.flatMap Specifier.sights

def startsNumbered (found : List Specifier) : Bool :=
  found.head?.any (·.position.isSome)

def Sight.use? : Sight → Option (Nat × ValueType)
  | .reference _ _ => none
  | .use position type => some (position, type)

def earliestType (position : Nat) (seen : List Sight) : Option ValueType :=
  (seen.filterMap Sight.use?).lookup position

/-- What is wrong with a sight after those before it. -/
inductive Offends (numbered : Bool) (before : List Sight) : Sight → Fault → Prop where
  | mixed {text : String} {position : Option Nat} : position.isSome ≠ numbered →
      Offends numbered before (.reference text position) (.mixed text)
  | conflicting {position : Nat} {first second : ValueType} :
      earliestType position before = some first → first ≠ second →
      Offends numbered before (.use position second) (.conflicting position first second)

def Clean (numbered : Bool) (seen : List Sight) : Prop :=
  ∀ before sight after, seen = before ++ sight :: after →
    ∀ fault, ¬ Offends numbered before sight fault

def FirstOffence (numbered : Bool) (seen : List Sight) (fault : Fault) : Prop :=
  ∃ before sight after, seen = before ++ sight :: after ∧ Clean numbered before ∧
    Offends numbered before sight fault

section clean
variable {numbered : Bool} {seen : List Sight} {sight : Sight} {fault : Fault}

theorem clean_nil : Clean numbered [] := by
  intro before sight after h
  simp at h

theorem Clean.concat (h : Clean numbered seen) (hs : ∀ fault, ¬ Offends numbered seen sight fault) :
    Clean numbered (seen ++ [sight]) := by
  intro before other after heq
  rcases List.eq_nil_or_concat after with rfl | ⟨after, last, rfl⟩
  · obtain ⟨rfl, hsight⟩ := List.append_inj' heq rfl
    cases hsight
    exact hs
  · have heq' : seen ++ [sight] = (before ++ other :: after) ++ [last] := by simpa using heq
    obtain ⟨hseen, -⟩ := List.append_inj' heq' rfl
    exact h before other after hseen

theorem not_offends_fitting (text : String) {position : Option Nat}
    (h : position.isSome = numbered) (fault : Fault) :
    ¬ Offends numbered seen (.reference text position) fault := by
  rintro ⟨hne⟩
  exact hne h

end clean

/-- The items that the specifiers of a numbered text have, beside what is seen of them. Nothing is
said of what comes after a reference without a position. -/
inductive Shows : List Sight → List (Except Fault Use) → Prop where
  | nil : Shows [] []
  | fitting {text : String} {position : Nat} {seen : List Sight} {items : List (Except Fault Use)} :
      Shows seen items → Shows (.reference text (some position) :: seen) items
  | bare {text : String} {seen : List Sight} {items : List (Except Fault Use)} :
      Shows (.reference text none :: seen) (.error (.mixed text) :: items)
  | use (u : Use) {seen : List Sight} {items : List (Except Fault Use)} :
      Shows seen items → Shows (.use u.position u.type :: seen) (.ok u :: items)

theorem Shows.append {seen more : List Sight} {items others : List (Except Fault Use)}
    (h : Shows seen items) (hmore : Shows more others) : Shows (seen ++ more) (items ++ others) := by
  induction h with
  | nil => exact hmore
  | fitting _ ih => exact .fitting ih
  | bare => exact .bare
  | use u _ ih => exact .use u ih

theorem shows_star (s : Specifier) (dimension : Dimension) (role : Role) (group : Nat) :
    Shows (starSights s.text dimension) (Specifier.uses.star s dimension role group) := by
  cases dimension with
  | absent => exact .nil
  | literal value => exact .nil
  | star position =>
    cases position with
    | none => exact .bare
    | some p => exact .fitting (.use ⟨p, .int, role, group⟩ .nil)

theorem shows_uses (s : Specifier) : Shows s.sights s.uses := by
  unfold Specifier.sights Specifier.uses
  cases s.position with
  | none => exact .bare
  | some group =>
    have hvalue : Shows [.use group s.valueType] [.ok ⟨group, s.valueType, .value, group⟩] :=
      .use ⟨group, s.valueType, .value, group⟩ .nil
    exact .fitting (((shows_star s _ _ _).append (shows_star s _ _ _)).append hvalue)

theorem shows_sights (found : List Specifier) :
    Shows (sights found) (found.flatMap Specifier.uses) := by
  induction found with
  | nil => exact .nil
  | cons s found ih => exact (shows_uses s).append ih

def Use.seen (use : Use) : Nat × ValueType :=
  (use.position, use.type)

section earliest
variable {seen : List Sight} {uses : List Use}

theorem exists_of_earliestType {position : Nat} {type : ValueType}
    (huses : seen.filterMap Sight.use? = uses.map Use.seen)
    (h : earliestType position seen = some type) :
    ∃ v ∈ uses, v.position = position ∧ v.type = type := by
  rw [earliestType, huses] at h
  obtain ⟨before, after, heq, -⟩ := List.lookup_eq_some_iff.mp h
  have hmem : (position, type) ∈ uses.map Use.seen := by simp [heq]
  obtain ⟨v, hv, hseen⟩ := List.mem_map.mp hmem
  exact ⟨v, hv, congrArg Prod.fst hseen, congrArg Prod.snd hseen⟩

theorem earliestType_of_mem {v : Use} (huses : seen.filterMap Sight.use? = uses.map Use.seen)
    (hagree : Agree uses) (hv : v ∈ uses) : earliestType v.position seen = some v.type := by
  cases h : earliestType v.position seen with
  | none =>
    rw [earliestType, huses, List.lookup_eq_none_iff] at h
    simpa [Use.seen] using h _ (List.mem_map_of_mem hv)
  | some type =>
    obtain ⟨w, hw, hposition, rfl⟩ := exists_of_earliestType huses h
    rw [hagree w hw v hv hposition]

end earliest

theorem Shows.addAll {ss : List Sight} {items : List (Except Fault Use)} (h : Shows ss items)
    {slots : SlotMap} {uses : List Use} {seen : List Sight} (hslots : slots.Sums uses)
    (huses : seen.filterMap Sight.use? = uses.map Use.seen) (hclean : Clean true seen) :
    (∃ more out, items = more.map .ok ∧ slots.addAll items = .ok out ∧ out.Sums (uses ++ more) ∧
      Clean true (seen ++ ss)) ∨
    ∃ fault, FirstOffence true (seen ++ ss) fault ∧ slots.addAll items = .error fault := by
  induction h generalizing slots uses seen with
  | nil => exact .inl ⟨[], slots, rfl, rfl, by simpa using hslots, by simpa using hclean⟩
  | @fitting text position ss items _ ih =>
    rw [List.append_cons]
    refine ih hslots ?_ (hclean.concat (not_offends_fitting text rfl))
    rw [List.filterMap_append, huses]
    exact List.append_nil _
  | @bare text ss items =>
    exact .inr ⟨_, ⟨seen, _, ss, rfl, hclean, .mixed (by decide)⟩, rfl⟩
  | @use u ss items _ ih =>
    rw [SlotMap.addAll_ok]
    rcases hslots.add u with ⟨next, hadd, hnext⟩ | ⟨v, hv, hposition, htype, hadd⟩
    · rw [hadd, Except.bind, List.append_cons]
      have hfree : ∀ fault, ¬ Offends true seen (.use u.position u.type) fault := by
        intro fault hoffends
        cases hoffends with
        | conflicting hfirst hne =>
          obtain ⟨v, hv, hposition, rfl⟩ := exists_of_earliestType huses hfirst
          exact hne (hnext.agree v (by simp [hv]) u (by simp) hposition)
      have huses' : (seen ++ [Sight.use u.position u.type]).filterMap Sight.use? =
          (uses ++ [u]).map Use.seen := by
        simp [huses, Sight.use?, Use.seen]
      rcases ih hnext huses' (hclean.concat hfree) with ⟨more, out, rfl, hall, hsums, hcleaned⟩ |
        hfault
      · rw [← List.append_cons] at hsums
        exact .inl ⟨u :: more, out, rfl, hall, hsums, hcleaned⟩
      · exact .inr hfault
    · rw [hadd, Except.bind]
      have hfirst := earliestType_of_mem huses hslots.agree hv
      rw [hposition] at hfirst
      exact .inr ⟨_, ⟨seen, _, ss, rfl, hclean, .conflicting hfirst htype⟩, rfl⟩

theorem numberedSlots_fault {found : List Specifier} (hpos : ∀ s ∈ found, s.Positive) {fault : Fault}
    (h : numberedSlots found = .error fault) :
    FirstOffence true (sights found) fault ∨
      Clean true (sights found) ∧ ∃ missing count, fault = .sparse missing count := by
  rcases (shows_sights found).addAll SlotMap.Sums.nil rfl clean_nil with
    ⟨uses, slots, hitems, hall, hsums, hclean⟩ | ⟨first, hfirst, hall⟩
  · rw [List.nil_append] at hsums
    rw [numberedSlots, hall] at h
    have hone := hsums.one_le hitems hpos
    rcases SlotMap.dense_cases hsums.ascending hone with ⟨-, hdense⟩ | ⟨-, hdense⟩
    · cases hdense.symm.trans h
    · obtain rfl := Except.error.inj (hdense.symm.trans h)
      exact .inr ⟨hclean, _, _, rfl⟩
  · rw [numberedSlots, hall] at h
    cases h
    exact .inl hfirst

theorem clean_of_bare {seen : List Sight}
    (h : ∀ sight ∈ seen, ∃ text, sight = .reference text none) : Clean false seen := by
  rintro before sight after rfl
  obtain ⟨text, rfl⟩ := h sight (by simp)
  exact not_offends_fitting text rfl

theorem bare_of_mem_starSights {text : String} {dimension : Dimension}
    (h : ∀ p, dimension ≠ .star (some p)) :
    ∀ sight ∈ starSights text dimension, sight = .reference text none := by
  cases dimension with
  | absent => exact List.forall_mem_nil _
  | literal value => exact List.forall_mem_nil _
  | star position =>
    cases position with
    | none => simp [starSights]
    | some p => exact absurd rfl (h p)

namespace Specifier
variable {s : Specifier}

theorem bare_of_mem_sights (h : s.Bare) : ∀ sight ∈ s.sights, sight = .reference s.text none := by
  intro sight hmem
  simp only [sights, h.position, Option.toList_none, List.map_nil, List.append_nil, List.mem_cons,
    List.mem_append] at hmem
  obtain rfl | hmem | hmem := hmem
  · rfl
  · exact bare_of_mem_starSights h.width sight hmem
  · exact bare_of_mem_starSights h.precision sight hmem

theorem exists_reference (h : ¬ s.Bare) :
    ∃ before position after, s.sights = before ++ .reference s.text (some position) :: after ∧
      ∀ sight ∈ before, sight = .reference s.text none := by
  cases hposition : s.position with
  | some p => exact ⟨[], p, _, by rw [sights, hposition]; rfl, List.forall_mem_nil _⟩
  | none =>
    by_cases hwidth : ∀ p, s.width ≠ .star (some p)
    · have hprecision : ∃ p, s.precision = .star (some p) := by
        by_contra hno
        exact h ⟨hposition, hwidth, fun p hp => hno ⟨p, hp⟩⟩
      obtain ⟨p, hp⟩ := hprecision
      refine ⟨.reference s.text none :: starSights s.text s.width, p, [.use p .int], ?_, ?_⟩
      · simp [sights, hposition, hp, starSights]
      · exact List.forall_mem_cons.mpr ⟨rfl, bare_of_mem_starSights hwidth⟩
    · obtain ⟨p, hp⟩ := not_forall.mp hwidth
      rw [not_not] at hp
      refine ⟨[.reference s.text none], p, .use p .int :: starSights s.text s.precision, ?_, ?_⟩
      · simp [sights, hposition, hp, starSights]
      · exact List.forall_mem_singleton.mpr rfl

end Specifier

theorem unnumberedSlots_fault {found : List Specifier} {fault : Fault}
    (h : unnumberedSlots 1 found = .error fault) : FirstOffence false (sights found) fault := by
  rcases unnumberedSlots_cases found 1 with ⟨-, heq⟩ | ⟨before, s, after, rfl, hbefore, hs, heq⟩
  · exact absurd (heq.symm.trans h) nofun
  · obtain rfl := Except.error.inj (heq.symm.trans h)
    obtain ⟨front, p, rest, hsights, hfront⟩ := s.exists_reference hs
    refine ⟨sights before ++ front, .reference s.text (some p), rest ++ sights after, ?_, ?_,
      .mixed Bool.noConfusion⟩
    · simp [sights, hsights]
    · refine clean_of_bare fun sight hmem => ?_
      cases List.mem_append.mp hmem with
      | inl hmem =>
        obtain ⟨t, ht, hmem⟩ := List.mem_flatMap.mp hmem
        exact ⟨t.text, t.bare_of_mem_sights (hbefore t ht) sight hmem⟩
      | inr hmem => exact ⟨s.text, hfront sight hmem⟩

theorem infer_eq_error_iff {found : List Specifier} {fault : Fault} :
    infer found = .error fault ↔ ∃ offence, slotsOf found = .error offence ∧ offence.raised = fault := by
  rw [← mapError_eq_error_iff]
  refine ⟨fun h => ?_, fun h => bind_eq_error_iff.mpr (.inl h)⟩
  obtain hslots | ⟨slots, -, hok⟩ := bind_eq_error_iff.mp h
  · exact hslots
  · cases hok

theorem slotsOf_fault {found : List Specifier} (hpos : ∀ s ∈ found, s.Positive) {fault : Fault}
    (h : slotsOf found = .error fault) :
    FirstOffence (startsNumbered found) (sights found) fault ∨
      Clean (startsNumbered found) (sights found) ∧
        ∃ missing count, fault = .sparse missing count := by
  cases found with
  | nil => cases h
  | cons first rest =>
    cases hposition : first.position with
    | some p =>
      have hnumbered : startsNumbered (first :: rest) = true := by simp [startsNumbered, hposition]
      rw [slotsOf_numbered rest hposition, map_eq_error_iff] at h
      rw [hnumbered]
      exact numberedSlots_fault hpos h
    | none =>
      have hnumbered : startsNumbered (first :: rest) = false := by simp [startsNumbered, hposition]
      rw [slotsOf_unnumbered rest hposition, map_eq_error_iff] at h
      rw [hnumbered]
      exact .inl (unnumberedSlots_fault h)

/-- The fault of specifiers is their first offence in reading order: a reference that does not fit the
first specifier, or a use of a position with another type than the earliest one has. A gap is the
fault only where nothing offends. What is raised is this fault, or, where it tells a number that is
too long to be spelled, just that. -/
theorem fault_is_first_offence {found : List Specifier} (hpos : ∀ s ∈ found, s.Positive)
    {fault : Fault} (h : infer found = .error fault) :
    ∃ offence : Fault, fault = offence.raised ∧
      (FirstOffence (startsNumbered found) (sights found) offence ∨
        Clean (startsNumbered found) (sights found) ∧
          ∃ missing count, offence = .sparse missing count) := by
  obtain ⟨offence, hslots, rfl⟩ := infer_eq_error_iff.mp h
  exact ⟨offence, rfl, slotsOf_fault hpos hslots⟩

theorem Fault.raised_eq {fault other : Fault} (h : fault.raised = other) (hne : other ≠ .unspelled) :
    fault = other := by
  unfold raised at h
  split at h
  · exact h
  · exact absurd h.symm hne

/-- The width of the first specifier is a use of the second position, so that position is used with
two types before the bare star of the third specifier comes. -/
theorem conflict_before_bare_star :
    ∃ found, specifiers "%1$*2$d %2$@ %3$*d" = .ok found ∧
      infer found = .error (.conflicting 2 .int .object) ∧
      FirstOffence true (sights found) (.conflicting 2 .int .object) := by
  obtain ⟨found, hfound, hfault, hnumbered⟩ : ∃ found, specifiers "%1$*2$d %2$@ %3$*d" = .ok found ∧
      infer found = .error (.conflicting 2 .int .object) ∧ startsNumbered found = true :=
    ⟨[{ position := some 1, width := .star (some 2), conversion := .decimal, text := "%1$*2$d" },
      { position := some 2, conversion := .object, text := "%2$@", start := 8 },
      { position := some 3, width := .star none, conversion := .decimal, text := "%3$*d",
        start := 13 }], by decide +kernel, by decide +kernel, rfl⟩
  refine ⟨found, hfound, hfault, ?_⟩
  obtain ⟨offence, hraised, hoffence⟩ :=
    fault_is_first_offence (fun s hs => positive_of_mem_specifiers hfound hs) hfault
  obtain rfl := Fault.raised_eq hraised.symm nofun
  rw [hnumbered] at hoffence
  rcases hoffence with hfirst | ⟨-, missing, count, hsparse⟩
  · exact hfirst
  · cases hsparse

end LocaleAccessors.Format
