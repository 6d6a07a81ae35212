import Draftboard.Proofs.Picture.Grammar
import Draftboard.Proofs.Picture.Skipped

/-!
# Draftboard.Proofs.Picture.VectorList

A list of vectors is the filled path of the same vectors.

* A line of a list gives two literals in three ways: in parentheses, with a comma, or with blanks between
  them (`PairText`). Each is read as the point of the two (`readPair_eq_ok_of_pairText`), and the lines
  of blanks are left out (`vectorLines_of_pairLines`).
* A command and a body without any of the characters that a text is split at are one statement
  (`statementTexts_command`). Such is the path of the same literals, which is read as the same polygon
  (`readVectors_eq_read`).
-/

namespace Draftboard

open Text

namespace Picture

/-! ### Lines -/

/-- The ways in which a line gives two literals. -/
inductive PairText (x y : List Char) : List Char → Prop
  | parenthesised {u w : List Char} (hu : Padded x u) (hw : Padded y w) :
      PairText x y ('(' :: (u ++ ',' :: w) ++ [')'])
  | comma {a b : List Char} (ha : AllBlank a) (hb : AllBlank b) :
      PairText x y (x ++ (a ++ ',' :: b) ++ y)
  | blanks {a : List Char} (hne : a ≠ []) (ha : AllBlank a) : PairText x y (x ++ a ++ y)

/-- Lines that give pairs of literals, with blanks around each, and lines of blanks among them. -/
inductive PairLines : List (List Char × List Char) → List (List Char) → Prop
  | nil : PairLines [] []
  | blank {pairs : List (List Char × List Char)} {line : List Char} {rest : List (List Char)}
      (hline : AllBlank line) (hrest : PairLines pairs rest) : PairLines pairs (line :: rest)
  | pair {x y s line : List Char} {pairs : List (List Char × List Char)} {rest : List (List Char)}
      (hpair : PairText x y s) (hline : Padded s line) (hrest : PairLines pairs rest) :
      PairLines ((x, y) :: pairs) (line :: rest)

/-- The point of two literals. -/
def pairPoint (pair : List Char × List Char) : Point Float :=
  ⟨Literal.value pair.1, Literal.value pair.2⟩

variable {x y s : List Char}

/-- A text between two literals has no blanks around it. -/
theorem trim_between (hx : Literal.Valid x) (hy : Literal.Valid y) (m : List Char) :
    trim (x ++ m ++ y) = x ++ m ++ y := by
  refine trim_of_ends (fun c hc => ?_) (fun c hc => ?_)
  · rw [List.append_assoc, List.head?_append_of_ne_nil _ hx.ne_nil] at hc
    exact hx.not_blank c (List.mem_of_mem_head? hc)
  · rw [List.getLast?_append_of_ne_nil _ hy.ne_nil] at hc
    exact hy.not_blank c (List.mem_of_getLast? hc)

theorem PairText.trim_eq (h : PairText x y s) (hx : Literal.Valid x) (hy : Literal.Valid y) :
    trim s = s := by
  cases h with
  | parenthesised => exact trim_parentheses _
  | comma | blanks => exact trim_between hx hy _

theorem PairText.ne_nil (h : PairText x y s) (hx : Literal.Valid x) : s ≠ [] := by
  cases h with
  | parenthesised => simp
  | comma | blanks => simp [hx.ne_nil]

/-- The parentheses of a line are dropped, and there are none around coordinates. -/
theorem IsCoordinates.filter_eq (h : IsCoordinates s) :
    s.filter (fun c => c != '(' && c != ')') = s := by
  refine List.filter_eq_self.2 fun c hc => ?_
  rw [Bool.and_eq_true, bne_iff_ne, bne_iff_ne]
  constructor
  · rintro rfl
    exact h.not_mem (by decide) (by decide) hc
  · rintro rfl
    exact h.not_mem (by decide) (by decide) hc

/-- Two texts with a comma between them give the two literals, without the blanks around them. -/
theorem lineCoordinates?_of_comma {u w line : List Char} (hx : Literal.Valid x)
    (hy : Literal.Valid y) (hu : Padded x u) (hw : Padded y w)
    (hline : line.filter (fun c => c != '(' && c != ')') = u ++ ',' :: w) :
    lineCoordinates? line = some (x, y) := by
  have hcomma : ∀ {z v : List Char}, Literal.Valid z → Padded z v → ∀ c ∈ v, (c == ',') = false := by
    intro z v hz hv c hc
    refine beq_eq_false_iff_ne.2 ?_
    rintro rfl
    exact hz.not_mem (by decide) (hv.mem (by decide) hc)
  have hsplit : splitWhere (· == ',') (u ++ ',' :: w) = [u, w] := by
    rw [splitWhere_append_cons (hcomma hx hu) (beq_self_eq_true _),
      splitWhere_of_none (hcomma hy hw)]
  have hcontains : (u ++ ',' :: w).contains ',' = true := by simp
  rw [lineCoordinates?, hline, if_pos hcontains, hsplit, List.map_cons, List.map_singleton, hu.trim_eq,
    hw.trim_eq, trim_of_no_blank hx.not_blank, trim_of_no_blank hy.not_blank]
  rfl

/-- However a line gives two literals, these are taken out of it. -/
theorem lineCoordinates?_of_pairText (h : PairText x y s) (hx : Literal.Valid x)
    (hy : Literal.Valid y) : lineCoordinates? s = some (x, y) := by
  have hxs := isCoordinates_of_valid hx
  have hys := isCoordinates_of_valid hy
  cases h with
  | @parenthesised u w hu hw =>
    have hinner := (isCoordinates_of_padded hx hu).append_comma (isCoordinates_of_padded hy hw)
    refine lineCoordinates?_of_comma hx hy hu hw ?_
    rw [List.filter_append, List.filter_cons_of_neg (by decide), hinner.filter_eq]
    exact List.append_nil _
  | @comma a b ha hb =>
    have htext : x ++ (a ++ ',' :: b) ++ y = (x ++ a) ++ ',' :: (b ++ y) := by
      simp only [List.append_assoc, List.cons_append]
    have hline := (hxs.append (isCoordinates_of_blanks ha)).append_comma
      ((isCoordinates_of_blanks hb).append hys)
    rw [htext]
    exact lineCoordinates?_of_comma hx hy ((Padded.refl x).append_right ha)
      ((Padded.refl y).append_left hb) hline.filter_eq
  | @blanks a hne ha =>
    have hline := (hxs.append (isCoordinates_of_blanks ha)).append hys
    -- Without a comma the words of the line are taken.
    have hcomma : (x ++ a ++ y).contains ',' = false := by
      rw [Bool.eq_false_iff, ne_eq, List.contains_iff_mem, List.mem_append, List.mem_append]
      rintro ((hc | hc) | hc)
      · exact hx.not_mem (by decide) hc
      · exact ha.not_mem (by decide) hc
      · exact hy.not_mem (by decide) hc
    rw [lineCoordinates?, hline.filter_eq, hcomma, if_neg Bool.false_ne_true,
      words_append hx.ne_nil hx.not_blank hne ha, words_of_no_blank hy.ne_nil hy.not_blank]
    rfl

theorem readPair_of_pairText (h : PairText x y s) (hx : Literal.Valid x) (hy : Literal.Valid y) :
    readPair s = .ok (pairPoint (x, y)) :=
  readPair_eq_ok_iff.2 ⟨(x, y), lineCoordinates?_of_pairText h hx hy, hx.read?_eq, hy.read?_eq⟩

variable {pairs : List (List Char × List Char)} {text : List Char}

/-- The lines with a pair are left, without the blanks around them. -/
theorem forall₂_of_pairLines {ls : List (List Char)} (h : PairLines pairs ls)
    (hvalid : ∀ pair ∈ pairs, Literal.Valid pair.1 ∧ Literal.Valid pair.2) :
    List.Forall₂ (fun line p => readPair line = .ok p) ((ls.map trim).filter (· ≠ []))
      (pairs.map pairPoint) := by
  induction h with
  | nil => exact .nil
  | blank hline _ ih =>
    have htrim := trim_append_of_blanks hline []
    rw [List.append_nil] at htrim
    rw [List.map_cons, htrim, List.filter_cons_of_neg (by decide)]
    exact ih hvalid
  | @pair x y s line pairs rest hpair hline _ ih =>
    obtain ⟨⟨hx, hy⟩, hrest⟩ := List.forall_mem_cons.1 hvalid
    have hne := hpair.ne_nil hx
    rw [List.map_cons, hline.trim_eq, hpair.trim_eq hx hy,
      List.filter_cons_of_pos (by simpa using hne), List.map_cons]
    exact .cons (readPair_of_pairText hpair hx hy) (ih hrest)

/-- A list of vectors is read as the polygon of the points that its lines spell. -/
theorem readVectors_of_pairLines (hne : pairs ≠ [])
    (hvalid : ∀ pair ∈ pairs, Literal.Valid pair.1 ∧ Literal.Valid pair.2)
    (hlines : PairLines pairs (lines text)) (placement : Placement) :
    readVectors placement text =
      .ok { geometry := .polyline (pairs.map fun pair => placement.apply (pairPoint pair))
            style := { filled := true } } := by
  have hread : readEach readPair (vectorLines text) = .ok (pairs.map pairPoint) :=
    readEach_eq_ok_iff.2 (forall₂_of_pairLines hlines hvalid)
  rw [readVectors_eq, hread]
  cases pairs with
  | nil => exact absurd rfl hne
  | cons pair pairs =>
    rw [List.map_cons]
    dsimp only
    rw [← List.map_cons, List.map_map]
    rfl

/-! ### One statement -/

/-- The characters that end a line or a statement, open a comment or a brace, or take the next character
out of the text. -/
def splitCharacters : List Char := ['\n', '\r', '%', ';', '{', '\\']

variable {body : List Char} {drawn : Style} {k : Kind}

/-- A body in parentheses that is nowhere split is one statement with its command. -/
theorem statementTexts_command (hparen : Parenthesized body)
    (hsplit : ∀ c ∈ splitCharacters, c ∉ body) :
    statementTexts (command drawn k ++ ' ' :: body ++ [';']) = [command drawn k ++ ' ' :: body] := by
  have hnot : ∀ c ∈ splitCharacters, c ∉ ' ' :: body := by
    intro c hc hmem
    rcases List.mem_cons.1 hmem with rfl | hmem
    · exact absurd hc (by decide)
    · exact hsplit c hc hmem
  have hline : ∀ {c}, c ∈ splitCharacters → c ∉ '\\' :: plainCharacters →
      c ∉ command drawn k ++ ' ' :: body := by
    intro c hc hplain hmem
    rcases List.mem_append.1 hmem with hmem | hmem
    · exact hplain (command_subset drawn k hmem)
    · exact hnot c hc hmem
  have hlegible : LegibleText (command drawn k ++ ' ' :: body ++ [';']) :=
    LegibleText.append_semicolon (legibleText_of_line (hline (by decide) (by decide))
      (hline (by decide) (by decide)) (hline (by decide) (by decide))
      (isEnvironmentLine_command drawn k _))
  have hbalanced : Balanced (command drawn k ++ ' ' :: body) :=
    (balanced_command drawn k).append (balanced_of_inert (hnot _ (by decide)) (hnot _ (by decide))
      (hnot _ (by decide)))
  have htrim : trim (command drawn k ++ ' ' :: body) = command drawn k ++ ' ' :: body := by
    obtain ⟨m, rfl⟩ := hparen
    refine trim_of_ends (fun c hc => ?_) (fun c hc => ?_)
    · rw [head?_command_append] at hc
      obtain rfl : '\\' = c := Option.some.inj hc
      decide
    · rw [List.getLast?_append_cons, ← List.cons_append, List.getLast?_concat] at hc
      obtain rfl : ')' = c := Option.some.inj hc
      decide
  have hended := statementTexts_append hlegible hbalanced htrim (by simp) []
  have hopen := @statementTexts_concat_lineFeed (command drawn k ++ ' ' :: body ++ [';']) (by simp)
    (by rw [List.getLast?_concat]; decide)
  rw [List.append_assoc _ [';']] at hopen
  rw [← hopen]
  exact hended

/-- What a body in parentheses draws is the only shape of its statement. -/
theorem read_command {st : Statement} (hparen : Parenthesized body)
    (hsplit : ∀ c ∈ splitCharacters, c ∉ body)
    (hbody : BodyText Anything
      { filled := decide (drawn.filled ∧ (k = .circle ∨ k = .polyline)) } body st)
    (placement : Placement) :
    read placement (command drawn k ++ ' ' :: body ++ [';']) = .ok [st.place placement] := by
  have hcommand : takeCommand (command drawn k ++ ' ' :: body) =
      (decide (drawn.filled ∧ (k = .circle ∨ k = .polyline)), body) := by
    obtain ⟨m, rfl⟩ := hparen
    rw [takeCommand_command, trimStart_cons_of_blank (by decide), List.cons_append,
      trimStart_cons_of_not_blank (by decide)]
  have hmodifiers : takeModifiers body = .ok ({}, body) := by
    obtain ⟨m, rfl⟩ := hparen
    rfl
  have hstatement : Statement.read (command drawn k ++ ' ' :: body) = .ok st := by
    refine Statement.read_eq_ok_iff.2 ⟨{}, body, ?_, ?_⟩
    · rw [hcommand, hmodifiers]
    · rw [hcommand]
      exact hbody
  rw [read_eq, readStatements, statementTexts_command hparen hsplit, readEach, hstatement]
  rfl

/-! ### The path -/

/-- The vector of two literals. -/
def pairVector (pair : List Char × List Char) : List Char :=
  '(' :: (pair.1 ++ ',' :: pair.2) ++ [')']

/-- The path of the vectors. -/
def pairPath (pairs : List (List Char × List Char)) : List Char :=
  joinWith ['-', '-'] (pairs.map pairVector)

/-- A filled path, without the semicolon that ends it. -/
def filledPath (pairs : List (List Char × List Char)) : List Char :=
  "\\filldraw ".toList ++ pairPath pairs

theorem vectorLiteral_pair {pair : List Char × List Char} (hx : Literal.Valid pair.1)
    (hy : Literal.Valid pair.2) : VectorLiteral (pairPoint pair) (pairVector pair) :=
  vectorLiteral_of_literals hx.read?_eq hy.read?_eq

theorem vectorText_pair {pair : List Char × List Char} (hx : Literal.Valid pair.1)
    (hy : Literal.Valid pair.2) : VectorText (pairPoint pair) (pairVector pair) :=
  ⟨_, vectorLiteral_pair hx hy, .refl _⟩

/-- At least three vectors are the text of a path. -/
theorem pathText_pairPath (hlength : 3 ≤ pairs.length)
    (hvalid : ∀ pair ∈ pairs, Literal.Valid pair.1 ∧ Literal.Valid pair.2) (style : Style) :
    PathText style (pairPath pairs) ⟨.path (pairs.map pairPoint), style⟩ := by
  cases pairs with
  | nil => exact absurd hlength (by decide)
  | cons pair pairs =>
    obtain ⟨⟨hx, hy⟩, hrest⟩ := List.forall_mem_cons.1 hvalid
    refine .path (vectorText_pair hx hy) ?_ (by simpa using hlength)
    rw [List.forall₂_map_left_iff, List.forall₂_map_right_iff, List.forall₂_same]
    exact fun pair hpair => .inl (vectorText_pair (hrest pair hpair).1 (hrest pair hpair).2)

theorem parenthesized_pairPath (hne : pairs ≠ []) : Parenthesized (pairPath pairs) := by
  induction pairs with
  | nil => exact absurd rfl hne
  | cons pair pairs ih =>
    by_cases hnil : pairs = []
    · subst hnil
      exact ⟨_, rfl⟩
    · rw [pairPath, List.map_cons, joinWith_cons (by simpa using hnil)]
      exact parenthesized_append ⟨_, rfl⟩ (ih hnil)

/-- The characters of paths of literals. -/
def pathCharacters : List Char := "-(),".toList ++ Literal.characters

theorem pairPath_subset (hvalid : ∀ pair ∈ pairs, Literal.Valid pair.1 ∧ Literal.Valid pair.2) :
    pairPath pairs ⊆ pathCharacters := by
  have hliteral : ∀ {z : List Char}, Literal.Valid z → z ⊆ pathCharacters := fun hz =>
    List.Subset.trans hz.subset (List.subset_append_right _ _)
  intro c hc
  rcases mem_of_mem_joinWith hc with hc | ⟨v, hv, hc⟩
  · exact (by decide : ['-', '-'] ⊆ pathCharacters) hc
  · obtain ⟨pair, hpair, rfl⟩ := List.mem_map.1 hv
    obtain ⟨hx, hy⟩ := hvalid pair hpair
    have hvector : pairVector pair ⊆ pathCharacters :=
      List.append_subset.2 ⟨List.cons_subset.2 ⟨by decide, List.append_subset.2
        ⟨hliteral hx, List.cons_subset.2 ⟨by decide, hliteral hy⟩⟩⟩, by decide⟩
    exact hvector hc

/-- A filled path is written as a filled polyline without modifiers would be. -/
theorem filledPath_eq (pairs : List (List Char × List Char)) :
    filledPath pairs = command { filled := true } .polyline ++ ' ' :: pairPath pairs := rfl

/-- A filled path is read as the polygon of the points that its vectors spell. -/
theorem read_filledPath (hlength : 3 ≤ pairs.length)
    (hvalid : ∀ pair ∈ pairs, Literal.Valid pair.1 ∧ Literal.Valid pair.2) (placement : Placement) :
    read placement (filledPath pairs ++ [';']) =
      .ok [{ geometry := .polyline (pairs.map fun pair => placement.apply (pairPoint pair))
             style := { filled := true } }] := by
  have hne : pairs ≠ [] := by
    rintro rfl
    exact absurd hlength (by decide)
  rw [filledPath_eq, read_command (parenthesized_pairPath hne)
    (not_mem_of_any (pairPath_subset hvalid) (by decide))
    (.path (pathText_pairPath hlength hvalid _)), Statement.place, Figure.place, List.map_map]
  rfl

/-- At least three pairs of literals make the same filled polygon, each on a line of a vector list in any
of the three ways and with lines of blanks among them, and as the vectors of a filled path. -/
theorem readVectors_eq_read (hlength : 3 ≤ pairs.length)
    (hvalid : ∀ pair ∈ pairs, Literal.Valid pair.1 ∧ Literal.Valid pair.2)
    (hlines : PairLines pairs (lines text)) (placement : Placement) :
    ∃ shape, readVectors placement text = .ok shape ∧
      read placement (filledPath pairs ++ [';']) = .ok [shape] := by
  have hne : pairs ≠ [] := by
    rintro rfl
    exact absurd hlength (by decide)
  exact ⟨_, readVectors_of_pairLines hne hvalid hlines placement,
    read_filledPath hlength hvalid placement⟩

/-- The three ways one after the other, with blank lines. -/
theorem readVectors_eq_read_mixed :
    let pairs := [("0".toList, "-1.5e0".toList), ("+1".toList, "Inf".toList), (".5".toList, "2.".toList)]
    let text := "\n ( 0 , -1.5e0) \r\n+1 ,Inf\n \t\n.5\t 2.".toList
    3 ≤ pairs.length ∧ (∀ pair ∈ pairs, Literal.Valid pair.1 ∧ Literal.Valid pair.2) ∧
      PairLines pairs (lines text) ∧
      ∃ shape, readVectors ⟨2, 90⟩ text = .ok shape ∧
        read ⟨2, 90⟩ (filledPath pairs ++ [';']) = .ok [shape] := by
  intro pairs text
  have hvalid : ∀ pair ∈ pairs, Literal.Valid pair.1 ∧ Literal.Valid pair.2 := by decide +kernel
  have htext : lines text = [[], " ( 0 , -1.5e0) ".toList, "+1 ,Inf".toList, " \t".toList,
      ".5\t 2.".toList] := by decide +kernel
  have hlines : PairLines pairs (lines text) := by
    rw [htext]
    refine .blank (by decide) (.pair (.parenthesised (u := " 0 ".toList) (w := " -1.5e0".toList)
      ⟨[' '], [' '], rfl, by decide, by decide⟩ ⟨[' '], [], rfl, by decide, by decide⟩)
      ⟨[' '], [' '], rfl, by decide, by decide⟩ (.pair (.comma (a := [' ']) (b := []) (by decide)
      (by decide)) (.refl _) (.blank (by decide) (.pair (.blanks (a := "\t ".toList) (by decide)
      (by decide)) (.refl _) .nil))))
  exact ⟨by decide, hvalid, hlines, readVectors_eq_read (by decide) hvalid hlines ⟨2, 90⟩⟩

end Picture

end Draftboard
