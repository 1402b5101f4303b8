import LocaleAccessors.Output
import LocaleAccessors.Proofs.Result

/-!
What a stream has of the texts that are written to it: all of them, or a part from their start when it
fails.
-/

namespace LocaleAccessors.Files.Stream

theorem write_prefix (stream : Stream) (text : String) : (stream.write text).1 <+: text.toList := by
  unfold write
  split_ifs
  · exact List.nil_prefix
  · cases stream.room with
    | none => exact List.prefix_rfl
    | some room =>
      dsimp only
      split_ifs
      · exact List.take_prefix room text.toList
      · exact List.prefix_rfl

theorem write_of_some {stream next : Stream} {text : String} (h : (stream.write text).2 = some next) :
    (stream.write text).1 = text.toList := by
  unfold write at h ⊢
  split_ifs at h ⊢
  cases hroom : stream.room with
  | none => rfl
  | some room =>
    simp only [hroom] at h ⊢
    split_ifs at h ⊢
    rfl

/-- By induction on the texts: what comes before the failure is a whole number of them and a part of the
next. -/
theorem writeAll_prefix (stream : Stream) (texts : List String) :
    (stream.writeAll texts).1 <+: texts.flatMap String.toList := by
  induction texts generalizing stream with
  | nil => exact List.prefix_rfl
  | cons text rest ih =>
    have hhead := stream.write_prefix text
    rw [writeAll, List.flatMap_cons]
    cases hwrite : stream.write text with
    | mk taken after =>
      rw [hwrite] at hhead
      cases after with
      | none => exact hhead.trans (List.prefix_append _ _)
      | some next =>
        have htaken := write_of_some (congrArg Prod.snd hwrite)
        rw [hwrite] at htaken
        dsimp only at htaken ⊢
        rw [htaken]
        exact (List.prefix_append_right_inj _).mpr (ih next)

theorem writeAll_of_whole {stream : Stream} {texts : List String}
    (h : (stream.writeAll texts).2 = true) :
    (stream.writeAll texts).1 = texts.flatMap String.toList := by
  induction texts generalizing stream with
  | nil => rfl
  | cons text rest ih =>
    rw [writeAll] at h ⊢
    rw [List.flatMap_cons]
    cases hwrite : stream.write text with
    | mk taken after =>
      rw [hwrite] at h
      cases after with
      | none => cases h
      | some next =>
        have htaken := write_of_some (congrArg Prod.snd hwrite)
        rw [hwrite] at htaken
        dsimp only at h htaken ⊢
        rw [htaken, ih h]

theorem writeAll_of_refused {stream : Stream} {taken refused : String} {rest : List String}
    (hroom : stream.room = none) (htaken : ∀ c ∈ stream.forbidden, c ∉ taken.toList)
    (hrefused : ∃ c ∈ stream.forbidden, c ∈ refused.toList) :
    stream.writeAll (taken :: refused :: rest) = (taken.toList, false) := by
  have hfirst : stream.write taken = (taken.toList, some stream) := by
    have hnone : ¬ (stream.forbidden.any fun c => c ∈ taken.toList) = true := by simpa using htaken
    rw [write, if_neg hnone, hroom]
  have hsecond : stream.write refused = ([], none) := by
    have hsome : (stream.forbidden.any fun c => c ∈ refused.toList) = true := by simpa using hrefused
    rw [write, if_pos hsome]
  simp only [writeAll, hfirst, hsecond, List.append_nil]

end LocaleAccessors.Files.Stream

namespace LocaleAccessors
open Files (Path Store)

variable {s : Store} {texts : List String}

theorem writeStream_of_ok {paths : List Path} (h : (writeStream s texts).paths = .ok paths) :
    (writeStream s texts).stream = String.join texts := by
  apply String.toList_inj.mp
  rw [String.toList_join, writeStream, String.toList_ofList]
  refine Files.Stream.writeAll_of_whole ?_
  by_contra hfailed
  simp [writeStream, hfailed] at h

end LocaleAccessors
