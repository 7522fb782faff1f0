/-!
Sets of code points given by their ranges, and the white space that separates
tokens. Main statement: every blank of ASCII is in the set.
-/

namespace ValueChannels.Text

/-- A set of code points as inclusive ranges in ascending order. -/
abbrev CodePointRanges := List (Nat × Nat)

def CodePointRanges.holds (ranges : CodePointRanges) (c : Char) : Bool :=
  ranges.any fun (first, last) => first ≤ c.toNat && c.toNat ≤ last

/-- The code points with the Unicode property `White_Space`. -/
def whiteSpace : CodePointRanges :=
  [(0x9, 0xD), (0x20, 0x20), (0x85, 0x85), (0xA0, 0xA0), (0x1680, 0x1680),
    (0x2000, 0x200A), (0x2028, 0x2029), (0x202F, 0x202F), (0x205F, 0x205F), (0x3000, 0x3000)]

/-- White space in the sense of Unicode, which separates tokens. -/
def isWhiteSpace (c : Char) : Bool :=
  whiteSpace.holds c

/-- The bytes a character takes up in UTF-8, summed over a text. -/
def byteLength : List Char → Nat
  | [] => 0
  | c :: rest => c.utf8Size + byteLength rest

theorem byteLength_append (first second : List Char) :
    byteLength (first ++ second) = byteLength first + byteLength second := by
  induction first with
  | nil => simp [byteLength]
  | cons c rest ih => simp [byteLength, ih, Nat.add_assoc]

theorem isWhiteSpace_of_isWhitespace (c : Char) (blank : c.isWhitespace = true) :
    isWhiteSpace c = true := by
  simp only [Char.isWhitespace, Bool.or_eq_true, decide_eq_true_eq] at blank
  rcases blank with ((same | same) | same) | same <;> subst same <;> rfl

end ValueChannels.Text
