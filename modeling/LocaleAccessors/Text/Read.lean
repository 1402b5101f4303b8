/-!
Reading from the front of a list of characters.
-/

namespace LocaleAccessors.Text

/-- What was read from the front of `cs`, and what follows it. Something is always read, which is why
reading one thing after another comes to an end. -/
structure Read (α : Type) (cs : List Char) where
  value : α
  rest : List Char
  shorter : rest.length < cs.length

namespace Read
variable {α β γ : Type} {c : Char} {cs rest : List Char}

def map (f : α → β) (r : Read α cs) : Read β cs :=
  ⟨f r.value, r.rest, r.shorter⟩

def first (value : α) : Read α (c :: rest) :=
  ⟨value, rest, Nat.lt_succ_self _⟩

def after (r : Read α cs) : Read α (c :: cs) :=
  ⟨r.value, r.rest, Nat.lt_succ_of_lt r.shorter⟩

def past (p : Char → Bool) (r : Read α (cs.dropWhile p)) : Read α cs :=
  ⟨r.value, r.rest, Nat.lt_of_lt_of_le r.shorter (List.dropWhile_sublist p).length_le⟩

def follow (f : α → β → γ) (r : Read α cs) (s : Read β r.rest) : Read γ cs :=
  ⟨f r.value s.value, s.rest, Nat.lt_trans s.shorter r.shorter⟩

def andThen (r : Read α cs) (next : (rest : List Char) → Option (Read β rest)) :
    Option (Read β cs) :=
  (next r.rest).map (r.follow fun _ b => b)

def skip (r : Read α cs) (p : Char → Bool) : Read α cs :=
  ⟨r.value, r.rest.dropWhile p,
    Nat.lt_of_le_of_lt (List.dropWhile_sublist p).length_le r.shorter⟩

end Read

def readChar (p : Char → Bool) : (cs : List Char) → Option (Read Char cs)
  | [] => none
  | c :: _ => if p c then some (.first c) else none

/-- A character of one class, and after it as many characters of another one as there are. -/
def readHeaded (head p : Char → Bool) : (cs : List Char) → Option (Read (List Char) cs)
  | [] => none
  | c :: rest =>
    if head c then
      some ⟨c :: rest.takeWhile p, rest.dropWhile p,
        Nat.lt_succ_of_le (List.dropWhile_sublist p).length_le⟩
    else none

def readRun (p : Char → Bool) (cs : List Char) : Option (Read (List Char) cs) :=
  readHeaded p p cs

def readWord (word cs : List Char) : Option (Read Unit cs) :=
  if h : word.isPrefixOf cs ∧ word ≠ [] then
    some ⟨(), cs.drop word.length, by
      have := (List.isPrefixOf_iff_prefix.mp h.1).length_le
      have := List.length_pos_iff.mpr h.2
      simp only [List.length_drop]
      omega⟩
  else none

/-- The text in front of the first place where `mark` stands, and what follows the mark there. -/
def readUntil (mark : List Char) : (cs : List Char) → Option (Read (List Char) cs)
  | [] => none
  | c :: rest =>
    match readWord mark (c :: rest) with
    | some r => some (r.map fun _ => [])
    | none => (readUntil mark rest).map fun r => r.after.map (c :: ·)

end LocaleAccessors.Text
