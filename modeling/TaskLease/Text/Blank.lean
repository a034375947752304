/-!
# Blank characters

Holder identities are trimmed, record files that hold only blanks count as empty, and duration
words are separated by blanks. All three mean the same class of characters: the Unicode property
`White_Space`.
-/

namespace TaskLease.Text

/-- The inclusive code point ranges of the property `White_Space`. -/
def blankRanges : List (Nat × Nat) :=
  [(0x9, 0xD), (0x20, 0x20), (0x85, 0x85), (0xA0, 0xA0), (0x1680, 0x1680), (0x2000, 0x200A),
   (0x2028, 0x2029), (0x202F, 0x202F), (0x205F, 0x205F), (0x3000, 0x3000)]

/-- Whether a character has the property `White_Space`. -/
def isBlank (c : Char) : Bool :=
  blankRanges.any fun range => range.1 ≤ c.toNat && c.toNat ≤ range.2

/-- The text without the blanks it starts with. -/
def skipBlanks (cs : List Char) : List Char := cs.dropWhile isBlank

/-- The text without the blanks at either end. -/
def trim (cs : List Char) : List Char :=
  (skipBlanks (skipBlanks cs).reverse).reverse

/-- Whether a text holds no character other than blanks. -/
def isBlankText (cs : List Char) : Bool := cs.all isBlank

/-- Every character that core calls whitespace is a blank. -/
theorem isBlank_of_isWhitespace {c : Char} (h : c.isWhitespace = true) : isBlank c = true := by
  simp only [Char.isWhitespace, Bool.or_eq_true, decide_eq_true_eq] at h
  rcases h with ((h | h) | h) | h <;> subst h <;> decide

end TaskLease.Text
