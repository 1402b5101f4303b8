import LocaleAccessors.Key.Tree
import LocaleAccessors.Proofs.Text.Separated

/-!
Paths of keys have one written form, the segments with the delimiter between them. Where the delimiter
cannot overlap itself, two keys with a delimiter between them have the path of the first and then that
of the second.
-/

namespace LocaleAccessors.Key
open Text (Separator pieces cuts_pieces pieces_eq_iff)
variable {d : Separator}

theorem toList_path (d : Separator) (key : String) :
    (path d key).map String.toList = (pieces d key.toList).filter (· ≠ []) := by
  simp [path]

theorem of_mem_path {key segment : String} (h : segment ∈ path d key) :
    segment ≠ "" ∧ ¬ d.chars <:+: segment.toList := by
  have hmem : segment.toList ∈ (pieces d key.toList).filter (· ≠ []) :=
    toList_path d key ▸ List.mem_map_of_mem h
  obtain ⟨hpiece, hne⟩ := List.mem_filter.mp hmem
  refine ⟨?_, (cuts_pieces d key.toList).no_separator hpiece⟩
  rintro rfl
  simp at hne

@[simp] theorem path_empty (d : Separator) : path d "" = [] := by
  simp [path, pieces]

section delimiter
variable {delimiter : String} (hd : delimiter.toList = d.chars)
include hd

theorem path_intercalate (key : String) :
    path d (delimiter.intercalate (path d key)) = path d key := by
  by_cases hempty : path d key = []
  · rw [hempty]
    exact path_empty d
  · have hkept : (pieces d key.toList).filter (· ≠ []) ≠ [] := by
      rw [← toList_path]
      exact fun h => hempty (List.map_eq_nil_iff.mp h)
    have hjoined := pieces_eq_iff.mpr ((cuts_pieces d key.toList).joined hkept)
    rw [← toList_path] at hjoined
    have hpieces : pieces d (delimiter.intercalate (path d key)).toList =
        (path d key).map String.toList := by
      rw [String.toList_intercalate, hd, hjoined]
    rw [path, hpieces, toList_path, List.filter_filter]
    simp [path]

theorem path_append (hborder : d.Unbordered) (a b : String) :
    path d (a ++ delimiter ++ b) = path d a ++ path d b := by
  simp only [path, String.toList_append, hd, hborder.pieces_append, List.filter_append,
    List.map_append]

end delimiter

/-- A path is that of its segments joined. Delimiters that cannot overlap themselves may be put at the
ends of a key and put again behind others. -/
theorem path_canonical {delimiter : String} (hdelimiter : delimiter ≠ "") :
    ∃ d, Separator.ofString? delimiter = some d ∧
      (∀ key, (∀ segment ∈ path d key, segment ≠ "" ∧ ¬ delimiter.toList <:+: segment.toList) ∧
        path d (delimiter.intercalate (path d key)) = path d key) ∧
      (delimiter.length = 1 → d.Unbordered) ∧
      (d.Unbordered → ∀ a b,
        path d (a ++ delimiter ++ b) = path d a ++ path d b ∧
        path d (delimiter ++ a) = path d a ∧ path d (a ++ delimiter) = path d a ∧
        path d (a ++ delimiter ++ delimiter ++ b) = path d (a ++ delimiter ++ b)) := by
  obtain ⟨d, hof, hd⟩ := Separator.ofString?_eq_some hdelimiter
  refine ⟨d, hof, fun key => ⟨fun segment hsegment => ?_, path_intercalate hd key⟩, fun hone => ?_,
    fun hborder a b => ?_⟩
  · rw [hd]
    exact of_mem_path hsegment
  · refine Separator.unbordered_of_single (List.length_eq_zero_iff.mp ?_)
    rw [← String.length_toList, hd] at hone
    exact Nat.succ.inj hone
  · have happend := path_append hd hborder
    have hfront : path d (delimiter ++ a) = path d a := by
      simpa using happend "" a
    have hback : path d (a ++ delimiter) = path d a := by
      simpa using happend a ""
    refine ⟨happend a b, hfront, hback, ?_⟩
    rw [happend, happend, hback]

/-- Halves of the delimiter stand next to it and belong to the segments. -/
theorem path_canonical_arrow :
    "=>" ≠ "" ∧ ∃ d, Separator.ofString? "=>" = some d ∧ d.Unbordered ∧
      path d "=>a=>=" = ["a", "="] ∧ path d ">b" = [">b"] ∧
      path d ("=>a=>=" ++ "=>" ++ ">b") = ["a", "=", ">b"] ∧
      path d ("=>".intercalate ["a", "=", ">b"]) = ["a", "=", ">b"] := by
  obtain ⟨d, hof, hkey, -, hunbordered⟩ := path_canonical (show "=>" ≠ "" by decide)
  cases hof.symm.trans (show Separator.ofString? "=>" = some ⟨'=', ['>']⟩ by decide +kernel)
  have hborder : Separator.Unbordered ⟨'=', ['>']⟩ := by decide
  have hfirst : path ⟨'=', ['>']⟩ "=>a=>=" = ["a", "="] := by decide +kernel
  have hsecond : path ⟨'=', ['>']⟩ ">b" = [">b"] := by decide +kernel
  have hjoined := (hunbordered hborder "=>a=>=" ">b").1
  rw [hfirst, hsecond] at hjoined
  have hcanonical := (hkey ("=>a=>=" ++ "=>" ++ ">b")).2
  rw [hjoined] at hcanonical
  exact ⟨by decide, _, hof, hborder, hfirst, hsecond, hjoined, hcanonical⟩

/-- A delimiter that overlaps itself is found one place earlier in the joined text. -/
example : path ⟨':', [':']⟩ ("a:" ++ "::" ++ "b") ≠ path ⟨':', [':']⟩ "a:" ++ path ⟨':', [':']⟩ "b" := by
  decide +kernel

end LocaleAccessors.Key
