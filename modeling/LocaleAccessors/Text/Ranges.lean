/-!
Classes of characters given by ascending, disjoint ranges of code points, and text trimmed of the blank
ones. These are the separators of Unicode and the control characters that separate lines, fields and
records.
-/

namespace LocaleAccessors.Text

/-- Both ends of a range belong to it. The ranges ascend, so the first one that does not end before
the code point decides. -/
def inRanges : List (Nat × Nat) → Nat → Bool
  | [], _ => false
  | (first, last) :: rest, n => if n ≤ last then first ≤ n else inRanges rest n

def blankRanges : List (Nat × Nat) := [
  (0x09, 0x0D), (0x1C, 0x20), (0x85, 0x85), (0xA0, 0xA0), (0x1680, 0x1680), (0x2000, 0x200A),
  (0x2028, 0x2029), (0x202F, 0x202F), (0x205F, 0x205F), (0x3000, 0x3000)]

def isBlank (c : Char) : Bool :=
  inRanges blankRanges c.toNat

def trimBlanks (cs : List Char) : List Char :=
  ((cs.dropWhile isBlank).reverse.dropWhile isBlank).reverse

end LocaleAccessors.Text
