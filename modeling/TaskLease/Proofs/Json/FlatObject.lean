import TaskLease.Json.Skip

/-!
# Flat objects and arrays are read back

An object whose values are all texts is read back from the text that `Json.pretty` makes of it. Escaping is
undone character by character (`readQuoted_escape`), so names and values may hold any characters; the members
are read one after the other (`readItems_members`). A value that nobody asks for is passed over, which takes the
same characters off as reading it (`skipQuoted_of_readQuoted`). An array of texts is read back likewise.
-/

namespace TaskLease

namespace Json

variable {rest : List Char}

theorem hexValue?_hexDigit : ∀ n < 16, hexValue? (hexDigit n) = some n := by decide

/-- A control character is read back from its four hexadecimal digits. -/
theorem hexQuad?_control {n : Nat} (control : n < 32) :
    hexQuad? '0' '0' (hexDigit (n / 16)) (hexDigit (n % 16)) = some n := by
  have high := hexValue?_hexDigit (n / 16) (by omega)
  have low := hexValue?_hexDigit (n % 16) (by omega)
  have zero : hexValue? '0' = some 0 := by decide
  simp only [hexQuad?, zero, high, low, Option.bind_eq_bind, Option.bind_some, Option.pure_def,
    Option.some.injEq]
  omega

/-- A character that needs no escape stands for itself. -/
theorem readQuoted_plain {c : Char} (no_quote : c ≠ '"') (no_escape : c ≠ '\\') (printable : ¬ c.toNat < 32) :
    readQuoted (c :: rest) = (readQuoted rest).map fun r => (c :: r.1, r.2) := by
  rw [readQuoted.eq_def]
  split
  · rename_i quote
    cases quote
    exact absurd rfl no_quote
  · rename_i unicode
    cases unicode
    exact absurd rfl no_escape
  · rename_i simple
    cases simple
    exact absurd rfl no_escape
  · rename_i same
    cases same
    rw [if_neg (by simp [no_escape, printable])]
    cases readQuoted rest <;> rfl
  · rename_i empty
    cases empty

theorem readQuoted_unicode {a b c d : Char} {unit : Nat} (rest : List Char)
    (quad : hexQuad? a b c d = some unit) (single : unit < 0xD800) :
    readQuoted ('\\' :: 'u' :: a :: b :: c :: d :: rest) =
      (readQuoted rest).map fun r => (Char.ofNat unit :: r.1, r.2) := by
  have leading : isLeadingSurrogate unit = false := by
    simp only [isLeadingSurrogate, Bool.and_eq_false_iff, decide_eq_false_iff_not]
    omega
  have trailing : isTrailingSurrogate unit = false := by
    simp only [isTrailingSurrogate, Bool.and_eq_false_iff, decide_eq_false_iff_not]
    omega
  rw [readQuoted]
  simp only [quad, leading, trailing, Option.bind_eq_bind, Option.bind_some, Bool.false_eq_true, if_false]
  cases readQuoted rest <;> rfl

theorem readQuoted_simple {c plain : Char} (simple : unescape? c = some plain) (no_unicode : c ≠ 'u') :
    readQuoted ('\\' :: c :: rest) = (readQuoted rest).map fun r => (plain :: r.1, r.2) := by
  rw [readQuoted]
  · simp only [simple, Option.bind_eq_bind, Option.bind_some]
    cases readQuoted rest <;> rfl
  · intro a b c' d rest' unicode
    exact absurd unicode no_unicode

/-- However a character is escaped, it is read back. -/
theorem readQuoted_escape (c : Char) :
    readQuoted (escape c ++ rest) = (readQuoted rest).map fun r => (c :: r.1, r.2) := by
  unfold escape
  split
  · subst c
    exact readQuoted_simple rfl (by decide)
  split
  · subst c
    exact readQuoted_simple rfl (by decide)
  split
  · subst c
    exact readQuoted_simple rfl (by decide)
  split
  · subst c
    exact readQuoted_simple rfl (by decide)
  split
  · subst c
    exact readQuoted_simple rfl (by decide)
  split
  · subst c
    exact readQuoted_simple rfl (by decide)
  split
  · subst c
    exact readQuoted_simple rfl (by decide)
  split
  · rename_i control
    have read := readQuoted_unicode rest (hexQuad?_control control) (by omega)
    rw [Char.ofNat_toNat] at read
    exact read
  · rename_i quote escape _ _ _ _ _ printable
    exact readQuoted_plain quote escape printable

/-- A text is read back from behind its first quote. -/
theorem readQuoted_quote (text : String) :
    readQuoted (text.toList.flatMap escape ++ '"' :: rest) = some (text.toList, rest) := by
  induction text.toList with
  | nil => rw [List.flatMap_nil, List.nil_append, readQuoted]
  | cons c cs ih =>
    rw [List.flatMap_cons, List.append_assoc, readQuoted_escape, ih]
    rfl

theorem quote_append (text : String) :
    quote text ++ rest = '"' :: (text.toList.flatMap escape ++ '"' :: rest) := by
  simp [quote]

theorem skipSpace_quote (text : String) : skipSpace (quote text ++ rest) = quote text ++ rest := by
  simp [skipSpace, quote, isSpace]

theorem skipSpace_blank_quote (text : String) : skipSpace (' ' :: (quote text ++ rest)) = quote text ++ rest := by
  simp [skipSpace, quote, isSpace]

theorem readValue_of_skipSpace (depth : Nat) {text : String} {cs : List Char}
    (skipped : skipSpace cs = quote text ++ rest) : readValue depth cs = some (.string text, rest) := by
  unfold readValue
  rw [skipped, quote_append]
  change (readQuoted _).map (fun r => (Json.string (String.ofList r.1), r.2)) = _
  rw [readQuoted_quote, Option.map_some, String.ofList_toList]

/-- A quoted text that can be read can be passed over. -/
theorem skipQuoted_of_readQuoted (cs : List Char) :
    ∀ {text rest : List Char}, readQuoted cs = some (text, rest) → skipQuoted cs = some rest := by
  -- the text behind a character is what the recursion goes on with
  have behind {c : Char} {tail text rest : List Char}
      (read : (readQuoted tail).bind (fun r => some (c :: r.1, r.2)) = some (text, rest)) :
      ∃ others, readQuoted tail = some (others, rest) := by
    obtain ⟨⟨others, rest'⟩, later, same⟩ := Option.bind_eq_some_iff.mp read
    cases same
    exact ⟨others, later⟩
  induction cs using readQuoted.induct with
  | case1 tail =>
    intro text rest read
    rw [readQuoted, Option.some.injEq, Prod.mk.injEq] at read
    rw [skipQuoted, read.2]
  | case2 a b c d tail paired single =>
    intro text rest read
    rw [readQuoted] at read
    obtain ⟨unit, quad, read⟩ := Option.bind_eq_some_iff.mp read
    rw [skipQuoted, quad, Option.isSome_some, if_pos rfl]
    split at read
    · split at read
      · obtain ⟨low, second, read⟩ := Option.bind_eq_some_iff.mp read
        split at read
        · obtain ⟨others, later⟩ := behind read
          rw [skipQuoted, second, Option.isSome_some, if_pos rfl]
          exact paired later
        · cases read
      · cases read
    · split at read
      · cases read
      · obtain ⟨others, later⟩ := behind read
        exact single later
  | case3 c tail no_unicode ih =>
    intro text rest read
    rw [readQuoted.eq_3 _ _ no_unicode] at read
    obtain ⟨plain, simple, read⟩ := Option.bind_eq_some_iff.mp read
    obtain ⟨others, later⟩ := behind read
    rw [skipQuoted.eq_3 _ _ no_unicode, simple, Option.isSome_some, if_pos rfl]
    exact ih later
  | case4 c tail no_quote no_unicode no_simple odd =>
    intro text rest read
    rw [readQuoted.eq_4 _ _ no_quote no_unicode no_simple, if_pos odd] at read
    cases read
  | case5 c tail no_quote no_unicode no_simple plain ih =>
    intro text rest read
    rw [readQuoted.eq_4 _ _ no_quote no_unicode no_simple, if_neg plain] at read
    obtain ⟨others, later⟩ := behind read
    rw [skipQuoted.eq_4 _ _ no_quote no_unicode no_simple, if_neg plain]
    exact ih later
  | case6 =>
    intro text rest read
    cases read

theorem skipValue_quote (text : String) : skipValue (' ' :: (quote text ++ rest)) = some rest := by
  have skipped : skipSpace (' ' :: (quote text ++ rest)) = '"' :: (text.toList.flatMap escape ++ '"' :: rest) :=
    (skipSpace_blank_quote text).trans (quote_append text)
  have passed : skipQuoted (text.toList.flatMap escape ++ '"' :: rest) = some rest :=
    skipQuoted_of_readQuoted _ (readQuoted_quote text)
  rw [skipValue, skipFrom]
  simp only [skipped]
  change (skipQuoted _).bind _ = some rest
  rw [passed]
  rfl

theorem skipSpace_newline (level : Nat) (cs : List Char) (solid : ∀ c tail, cs = c :: tail → isSpace c = false) :
    skipSpace (newline level ++ cs) = cs := by
  have blanks : ∀ c ∈ newline level, isSpace c = true := by
    intro c member
    rw [newline, List.mem_cons, List.mem_replicate] at member
    rcases member with rfl | ⟨-, rfl⟩ <;> rfl
  rw [skipSpace, List.dropWhile_append_of_pos blanks]
  cases cs with
  | nil => rfl
  | cons c tail => exact List.dropWhile_cons_of_neg (by simp [solid c tail rfl])

section Members

variable {value : String → List Char → Option (Json × List Char)} {seen : String × String → Json}

/-- A member as it is written, behind a new line. -/
def memberText (level : Nat) (member : String × String) : List Char :=
  newline level ++ (quote member.1 ++ ':' :: ' ' :: quote member.2)

/-- A member whose value is a text, as a member of an object. -/
def textMember (member : String × String) : String × Json := (member.1, .string member.2)

theorem readMember_memberText (level : Nat) (member : String × String) (rest : List Char) {json : Json}
    (reads : value member.1 (' ' :: (quote member.2 ++ rest)) = some (json, rest)) :
    readMember value (memberText level member ++ rest) = some ((member.1, json), rest) := by
  have skipped : skipSpace (memberText level member ++ rest) =
      quote member.1 ++ (':' :: ' ' :: (quote member.2 ++ rest)) := by
    rw [memberText, List.append_assoc, skipSpace_newline]
    · simp
    · intro c tail first
      rw [List.append_assoc, quote_append] at first
      cases first
      rfl
  rw [readMember, skipped, quote_append]
  simp only [readQuoted_quote, Option.bind_eq_bind, Option.bind_some, String.ofList_toList]
  have colon : skipSpace (':' :: ' ' :: (quote member.2 ++ rest)) = ':' :: ' ' :: (quote member.2 ++ rest) :=
    List.dropWhile_cons_of_neg (by decide)
  rw [colon]
  simp only [reads, Option.bind_some, Option.pure_def]

/-- The members of an object at a level, with a comma behind all but the last. -/
def memberTexts (level : Nat) : List (String × String) → List Char
  | [] => []
  | [member] => memberText level member
  | member :: rest => memberText level member ++ ',' :: memberTexts level rest

/-- Members are read one after the other, up to the bracket that closes their object. -/
theorem readItems_members (level outer bound : Nat) (members : List (String × String)) (rest : List Char)
    (some_member : members ≠ []) (fits : members.length ≤ bound)
    (reads : ∀ member ∈ members, ∀ rest,
      value member.1 (' ' :: (quote member.2 ++ rest)) = some (seen member, rest)) :
    readItems (readMember value) '}' bound (memberTexts level members ++ (newline outer ++ '}' :: rest)) =
      some (members.map fun member => (member.1, seen member), rest) := by
  induction members generalizing bound with
  | nil => exact absurd rfl some_member
  | cons member members ih =>
    cases bound with
    | zero => simp at fits
    | succ bound =>
      have first := fun tail => readMember_memberText level member tail (reads member (by simp) tail)
      cases members with
      | nil =>
        have closing : skipSpace (newline outer ++ '}' :: rest) = '}' :: rest :=
          skipSpace_newline outer _ (by intro c tail same; cases same; rfl)
        simp [memberTexts, readItems, first, closing]
      | cons next members =>
        have others := ih bound (by simp) (by simpa using fits)
          (fun other held => reads other (List.mem_cons_of_mem _ held))
        have comma : ∀ tail, skipSpace (',' :: tail) = ',' :: tail := fun tail =>
          List.dropWhile_cons_of_neg (by decide)
        simp only [memberTexts, List.append_assoc, List.cons_append, readItems, first, comma,
          Option.bind_eq_bind, Option.bind_some] at others ⊢
        rw [others]
        rfl

theorem memberTexts_cons (level : Nat) (member : String × String) (members : List (String × String)) :
    ∃ tail, memberTexts level (member :: members) = newline level ++ '"' :: tail := by
  have first (tail : List Char) : memberText level member ++ tail =
      newline level ++ '"' :: (member.1.toList.flatMap escape ++ '"' :: ':' :: ' ' :: quote member.2 ++ tail) := by
    simp [memberText, quote]
  cases members with
  | nil => exact ⟨_, by rw [memberTexts, ← List.append_nil (memberText level member), first]⟩
  | cons next members => exact ⟨_, first (',' :: memberTexts level (next :: members))⟩

theorem length_le_memberTexts (level : Nat) (members : List (String × String)) :
    members.length ≤ (memberTexts level members).length := by
  induction members with
  | nil => simp
  | cons member members ih =>
    cases members with
    | nil => simp [memberTexts, memberText, newline]
    | cons next members =>
      simp only [memberTexts, List.length_cons, List.length_append] at ih ⊢
      omega

/-- The members of an object, which are behind its opening bracket. -/
theorem readSequence_members (value : String → List Char → Option (Json × List Char)) (level outer : Nat)
    (members : List (String × String)) (rest : List Char) (some_member : members ≠ [])
    (reads : ∀ member ∈ members, ∀ rest,
      value member.1 (' ' :: (quote member.2 ++ rest)) = some (seen member, rest)) :
    readSequence (readMember value) '}' (memberTexts level members ++ (newline outer ++ '}' :: rest)) =
      some (members.map fun member => (member.1, seen member), rest) := by
  have read := readItems_members level outer
    (memberTexts level members ++ (newline outer ++ '}' :: rest)).length members rest some_member
    (by
      have shorter := length_le_memberTexts level members
      rw [List.length_append]
      omega) reads
  cases members with
  | nil => exact absurd rfl some_member
  | cons member members =>
    obtain ⟨tail, shape⟩ := memberTexts_cons level member members
    have skipped : skipSpace (memberTexts level (member :: members) ++ (newline outer ++ '}' :: rest)) =
        '"' :: (tail ++ (newline outer ++ '}' :: rest)) := by
      rw [shape, List.append_assoc, skipSpace_newline]
      · rfl
      · intro c cs same
        cases same
        rfl
    rw [readSequence, skipped]
    exact read

end Members

/-- What `pretty` makes of an object of texts. -/
theorem prettyAt_texts (member : String × String) (members : List (String × String)) :
    prettyAt 0 (.object ((member :: members).map textMember)) =
      '{' :: (memberTexts 1 (member :: members) ++ (newline 0 ++ ['}'])) := by
  have joined : ∀ (member : String × String) (members : List (String × String)),
      newline 1 ++ separated (',' :: newline 1) (prettyMembers 1 ((member :: members).map textMember)) =
        memberTexts 1 (member :: members) := by
    intro member members
    induction members generalizing member with
    | nil => simp [prettyMembers, separated, memberTexts, memberText, textMember, prettyAt]
    | cons next members ih =>
      have tail := ih next
      simp only [List.map_cons, prettyMembers, separated, memberTexts] at tail ⊢
      rw [← tail]
      simp [memberText, textMember, prettyAt]
  rw [List.map_cons, prettyAt, ← List.map_cons, ← joined]
  simp

/-- A member whose value is a text, as it is read by a reader that asks for some names. -/
def askedMember (names : List String) (member : String × String) : String × Json :=
  (member.1, if names.contains member.1 then .string member.2 else .null)

/-- An object of texts is read back, with null for the values of members that were not asked for. -/
theorem readOnly_pretty (names : List String) {members : List (String × String)} (some_member : members ≠ []) :
    readOnly names (pretty (.object (members.map textMember))) = some (.object (members.map (askedMember names))) := by
  cases members with
  | nil => exact absurd rfl some_member
  | cons member members =>
    have brace : ∀ tail, skipSpace ('{' :: tail) = '{' :: tail := fun tail =>
      List.dropWhile_cons_of_neg (by decide)
    have read := readSequence_members
      (fun name cs => if names.contains name then readValue (maxDepth - 1) cs
        else (skipValue cs).map fun rest => (.null, rest)) 1 0 (member :: members) [] some_member
      (by
        intro other _ tail
        show _ = some ((askedMember names other).2, tail)
        unfold askedMember
        split
        · exact readValue_of_skipSpace _ (skipSpace_blank_quote _)
        · rw [skipValue_quote]
          rfl)
    rw [readOnly, pretty, String.toList_ofList, prettyAt_texts, brace]
    simp only [read, Option.bind_eq_bind, Option.bind_some]
    rfl

/-! ## Arrays -/

theorem compactItems_texts (texts : List String) : compactItems (texts.map .string) = texts.map quote := by
  induction texts with
  | nil => rfl
  | cons text texts ih => rw [List.map_cons, compactItems, compact, ih, List.map_cons]

/-- Texts with commas between them are read one after the other, up to the bracket that closes their array. -/
theorem readItems_texts (depth bound : Nat) {texts : List String} (rest : List Char) (some_text : texts ≠ [])
    (fits : texts.length ≤ bound) :
    readItems (readValue depth) ']' bound (separated [','] (texts.map quote) ++ ']' :: rest) =
      some (texts.map .string, rest) := by
  induction texts generalizing bound with
  | nil => exact absurd rfl some_text
  | cons text texts ih =>
    cases bound with
    | zero => simp at fits
    | succ bound =>
      have first (tail : List Char) : readValue depth (quote text ++ tail) = some (.string text, tail) :=
        readValue_of_skipSpace depth (skipSpace_quote text)
      cases texts with
      | nil =>
        have closing : skipSpace (']' :: rest) = ']' :: rest := List.dropWhile_cons_of_neg (by decide)
        simp [separated, readItems, first, closing]
      | cons next texts =>
        have comma (tail : List Char) : skipSpace (',' :: tail) = ',' :: tail :=
          List.dropWhile_cons_of_neg (by decide)
        have others := ih bound (by simp) (by simpa using fits)
        simp only [List.map_cons, separated, List.append_assoc, List.cons_append, List.nil_append, readItems, first,
          comma, Option.bind_eq_bind, Option.bind_some] at others ⊢
        rw [others]
        rfl

theorem length_le_separated (texts : List String) : texts.length ≤ (separated [','] (texts.map quote)).length := by
  induction texts with
  | nil => simp
  | cons text texts ih =>
    cases texts with
    | nil => simp [separated, quote]
    | cons next texts =>
      simp only [List.map_cons, separated, List.length_cons, List.length_append] at ih ⊢
      omega

theorem readSequence_texts (depth : Nat) {texts : List String} (rest : List Char) (some_text : texts ≠ []) :
    readSequence (readValue depth) ']' (separated [','] (texts.map quote) ++ ']' :: rest) =
      some (texts.map .string, rest) := by
  have read := readItems_texts depth (separated [','] (texts.map quote) ++ ']' :: rest).length rest some_text
    (by
      have shorter := length_le_separated texts
      rw [List.length_append]
      omega)
  obtain ⟨tail, shape⟩ : ∃ tail, separated [','] (texts.map quote) ++ ']' :: rest = '"' :: tail := by
    cases texts with
    | nil => exact absurd rfl some_text
    | cons text texts =>
      cases texts with
      | nil => exact ⟨_, quote_append text⟩
      | cons next texts =>
        simp only [List.map_cons, separated, List.append_assoc]
        exact ⟨_, quote_append text⟩
  have solid : skipSpace ('"' :: tail) = '"' :: tail := List.dropWhile_cons_of_neg (by decide)
  rw [shape] at read ⊢
  rw [readSequence, solid]
  exact read

/-- An array of texts is read back, whatever names are asked for. -/
theorem readOnly_render (names : List String) {texts : List String} (some_text : texts ≠ []) :
    readOnly names (render (.array (texts.map .string))) = some (.array (texts.map .string)) := by
  have bracket (tail : List Char) : skipSpace ('[' :: tail) = '[' :: tail := List.dropWhile_cons_of_neg (by decide)
  have read : readValue maxDepth ('[' :: (separated [','] (texts.map quote) ++ [']'])) =
      some (.array (texts.map .string), []) := by
    rw [readValue, bracket]
    change (readSequence (readValue 126) ']' _).map _ = _
    rw [readSequence_texts 126 [] some_text]
    rfl
  rw [readOnly, render, String.toList_ofList, compact, compactItems_texts, List.cons_append, bracket]
  change readCharacters _ = _
  rw [readCharacters, read]
  rfl

end Json

end TaskLease
