/-!
# Draftboard.Text.Blank

Blank characters, and trimming and splitting at them.

Text is handled as a list of characters throughout the library; `String` stands only where a
text is stored or handed out. The blanks are the characters with the Unicode property
`White_Space`, which has no-break spaces and the line and paragraph separators in it, but
neither the zero-width spaces nor the byte order mark.
-/

namespace Draftboard.Text

/-- A character with the property `White_Space`. -/
def isBlank (c : Char) : Bool :=
  let n := c.toNat
  (9 ≤ n && n ≤ 13) || n == 0x20 || n == 0x85 || n == 0xA0 || n == 0x1680 ||
    (0x2000 ≤ n && n ≤ 0x200A) || n == 0x2028 || n == 0x2029 || n == 0x202F || n == 0x205F ||
    n == 0x3000

/-! ### Trimming -/

/-- The text without the blanks that it starts with. -/
def trimStart (s : List Char) : List Char := s.dropWhile isBlank

/-- The text without the blanks that it ends with. -/
def trimEnd (s : List Char) : List Char := (s.reverse.dropWhile isBlank).reverse

/-- The text without the blanks around it. -/
def trim (s : List Char) : List Char := trimEnd (trimStart s)

/-! ### Splitting -/

/-- Puts a character in front of the first piece. -/
def consHead (c : Char) : List (List Char) → List (List Char)
  | [] => [[c]]
  | w :: ws => (c :: w) :: ws

/-- The pieces between the characters that satisfy `p`. There is one more than there are such
characters. -/
def splitWhere (p : Char → Bool) : List Char → List (List Char)
  | [] => [[]]
  | c :: r => if p c then [] :: splitWhere p r else consHead c (splitWhere p r)

theorem consHead_ne_nil (c : Char) (ws : List (List Char)) : consHead c ws ≠ [] := by
  cases ws <;> simp [consHead]

theorem splitWhere_ne_nil (p : Char → Bool) (s : List Char) : splitWhere p s ≠ [] := by
  cases s with
  | nil => simp [splitWhere]
  | cons c r => by_cases h : p c <;> simp [splitWhere, h, consHead_ne_nil]

/-- The maximal runs of characters that are not blank. -/
def words (s : List Char) : List (List Char) := (splitWhere isBlank s).filter (· ≠ [])

/-- The parts before and after the first occurrence of `pattern`. -/
def cutAt (pattern : List Char) : List Char → Option (List Char × List Char)
  | [] => if pattern.isEmpty then some ([], []) else none
  | c :: r =>
    if pattern.isPrefixOf (c :: r) then some ([], (c :: r).drop pattern.length)
    else (cutAt pattern r).map fun (before, after) => (c :: before, after)

/-- Nothing is lost at a cut. -/
theorem append_of_cutAt {pattern s before after : List Char}
    (h : cutAt pattern s = some (before, after)) : s = before ++ pattern ++ after := by
  induction s generalizing before with
  | nil =>
    simp only [cutAt, List.isEmpty_iff] at h
    split at h <;> simp_all
  | cons c r ih =>
    simp only [cutAt] at h
    split at h
    · rename_i hp
      obtain ⟨t, ht⟩ := List.isPrefixOf_iff_prefix.1 hp
      obtain ⟨rfl, rfl⟩ := Prod.mk.inj (Option.some.inj h)
      rw [← ht]; simp
    · obtain ⟨⟨b, a⟩, hb, he⟩ := Option.map_eq_some_iff.1 h
      obtain ⟨rfl, rfl⟩ := Prod.mk.inj he
      simp [ih hb]

/-- Whether `pattern` occurs in the text. -/
def occursIn (pattern s : List Char) : Bool := (cutAt pattern s).isSome

/-- The text after `pattern`, if it starts with it. -/
def dropPrefix? (pattern s : List Char) : Option (List Char) :=
  if pattern.isPrefixOf s then some (s.drop pattern.length) else none

/-- The text inside an opening and a closing character, if it starts and ends with them. -/
def inside? (opening closing : Char) : List Char → Option (List Char)
  | [] => none
  | c :: r => if c = opening ∧ r.getLast? = some closing then some r.dropLast else none

/-! ### Letter case -/

/-- Whether two texts differ in the case of ASCII letters at most. -/
def sameIgnoringCase (s t : List Char) : Bool := s.map Char.toLower == t.map Char.toLower

end Draftboard.Text
