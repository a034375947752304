/-!
# Patterns

A pattern describes texts: a question mark stands for any character, a star for any number of them, and
square brackets for one of the characters in them. A character in quotes stands for itself. The rules here
are those of the patterns for names of files, and of the choices that a script makes by them.
-/

namespace TaskLease

namespace Pattern

/-- A character of a pattern, and whether it may mean more than itself. -/
abbrev Marked := Char × Bool

/-- A place of a pattern. -/
inductive Item where
  | exact (c : Char)
  /-- Any character. -/
  | one
  /-- Any number of any characters. -/
  | many
  /-- A character from one of some ranges, or from none of them. -/
  | among (outside : Bool) (ranges : List (Char × Char))
deriving DecidableEq, Repr

/-- Whether a character is in one of some ranges. -/
def isAmong (ranges : List (Char × Char)) (c : Char) : Bool := ranges.any fun (a, b) => a ≤ c && c ≤ b

/-- Whether a place admits a character. A star does so for itself and stays. -/
def Item.admits : Item → Char → Bool
  | .exact a, c => a == c
  | .one, _ | .many, _ => true
  | .among outside ranges, c => isAmong ranges c != outside

/-- The ranges of a named class of characters. -/
def classRanges (name : String) : List (Char × Char) :=
  match name with
  | "alpha" => [('a', 'z'), ('A', 'Z')]
  | "digit" => [('0', '9')]
  | "alnum" => [('a', 'z'), ('A', 'Z'), ('0', '9')]
  | "upper" => [('A', 'Z')]
  | "lower" => [('a', 'z')]
  | "space" => [('\t', '\r'), (' ', ' ')]
  | "blank" => [('\t', '\t'), (' ', ' ')]
  | "punct" => [('!', '/'), (':', '@'), ('[', '\x60'), ('\x7b', '~')]
  | "xdigit" => [('a', 'f'), ('A', 'F'), ('0', '9')]
  | _ => []

/-- The ranges of a class from behind its opening mark, and what follows the class. -/
def takeClass (cs : List Marked) : Option (List (Char × Char) × List Marked) :=
  let name := cs.takeWhile fun (c, _) => c.isAlpha
  match cs.drop name.length with
  | (':', _) :: (']', _) :: rest => some (classRanges (String.ofList (name.map (·.1))), rest)
  | _ => none

/-- Takes the ranges in square brackets up to the closing one, which is not the first character. -/
def takeRanges : (bound : Nat) → (first : Bool) → (ranges : List (Char × Char)) → List Marked →
    Option (List (Char × Char) × List Marked)
  | 0, _, _, _ => none
  | _ + 1, _, _, [] => none
  | bound + 1, first, ranges, (c, active) :: rest =>
    if c = ']' && active && !first then some (ranges, rest)
    else
      let named := match rest with
        | (':', _) :: rest => if c = '[' && active then takeClass rest else none
        | _ => none
      match named with
      | some (more, rest) => takeRanges bound false (ranges ++ more) rest
      | none =>
        match rest with
        | ('-', true) :: (d, closes) :: after =>
          if d = ']' && closes then takeRanges bound false (ranges ++ [(c, c)]) rest
          else takeRanges bound false (ranges ++ [(c, d)]) after
        | rest => takeRanges bound false (ranges ++ [(c, c)]) rest

/-- The place that square brackets make, from behind the opening one, and what follows them. -/
def takeAmong (cs : List Marked) : Option (Item × List Marked) :=
  let (outside, cs) := match cs with
    | ('!', true) :: rest | ('^', true) :: rest => (true, rest)
    | cs => (false, cs)
  (takeRanges (cs.length + 1) true [] cs).map fun (ranges, rest) => (.among outside ranges, rest)

/-- The places of a pattern. -/
def items : (bound : Nat) → List Marked → List Item
  | 0, _ => []
  | _ + 1, [] => []
  | bound + 1, (c, active) :: rest =>
    if active && c = '?' then .one :: items bound rest
    else if active && c = '*' then .many :: items bound rest
    else if active && c = '[' then
      match takeAmong rest with
      | some (item, rest) => item :: items bound rest
      | none => .exact c :: items bound rest
    else .exact c :: items bound rest

/-- Whether a text has the form that places describe. -/
def fits : List Item → List Char → Bool
  | [], cs => cs.isEmpty
  | item :: rest, [] => item = .many && fits rest []
  | item :: rest, c :: cs =>
    item.admits c && fits rest cs || item = .many && (fits rest (c :: cs) || fits (item :: rest) cs)
termination_by items cs => items.length + cs.length

/-- Whether a text has the form that a pattern describes. -/
def matchesText (pattern : List Marked) (cs : List Char) : Bool :=
  fits (items (pattern.length + 1) pattern) cs

/-- Whether a pattern may stand for more than one text. -/
def isOpen (pattern : List Marked) : Bool :=
  (items (pattern.length + 1) pattern).any fun
    | .exact _ => false
    | _ => true

/-- A pattern as the text that it is. -/
def plain (pattern : List Marked) : List Char := pattern.map (·.1)

/-- A text without its longest or shortest beginning that has the form of a pattern. -/
def withoutBeginning (pattern : List Marked) (longest : Bool) (cs : List Char) : List Char :=
  let sizes := (List.range (cs.length + 1)).filter fun n => matchesText pattern (cs.take n)
  match if longest then sizes.getLast? else sizes.head? with
  | some n => cs.drop n
  | none => cs

/-- A text without its longest or shortest end that has the form of a pattern. -/
def withoutEnd (pattern : List Marked) (longest : Bool) (cs : List Char) : List Char :=
  let sizes := (List.range (cs.length + 1)).filter fun n => matchesText pattern (cs.drop n)
  match if longest then sizes.head? else sizes.getLast? with
  | some n => cs.take n
  | none => cs

/-! ## Small laws -/

/-- A text without marks of its own describes itself. -/
theorem fits_exact (cs ds : List Char) : fits (cs.map .exact) ds = true ↔ cs = ds := by
  induction cs generalizing ds with
  | nil => cases ds <;> simp [fits]
  | cons c cs ih => cases ds <;> simp [fits, Item.admits, ih]

/-- A lone star describes every text. -/
theorem fits_many (cs : List Char) : fits [.many] cs = true := by
  induction cs with
  | nil => simp [fits]
  | cons c cs ih => simp [fits, ih]

end Pattern

end TaskLease
