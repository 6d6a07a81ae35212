import Draftboard.Proofs.Picture.Modifier
import Draftboard.Proofs.Picture.Token
import Draftboard.Proofs.Picture.Unplaced

/-!
# Draftboard.Proofs.Picture.Body

What stands behind the modifiers is read back.

A written point is read as the point of the numbers that its coordinates spell (`Point.spelled`),
from wherever it is taken: out of a path, which no hyphen of a coordinate breaks
(`pathPieces_path`), or as the first parenthesis of a text (`takeVector_point`). Each reader of a body
is then followed through the text of that body.
-/

namespace Draftboard

open Text

/-- The point that the text of a point spells. -/
def Point.spelled (p : Point Float) : Point Float :=
  ⟨Literal.value (Picture.coordinate p.x), Literal.value (Picture.coordinate p.y)⟩

namespace Picture

/-! ### Points -/

/-- The characters of points. None of them is a letter of a marker word. -/
def pointCharacters : List Char := "-0123456789.infNa(),".toList

theorem coordinate_subset (x : Float) : coordinate x ⊆ pointCharacters :=
  List.Subset.trans (isNumeral_coordinate x).subset (by decide)

theorem point_eq (p : Point Float) :
    point p = '(' :: (coordinate p.x ++ ',' :: coordinate p.y) ++ [')'] := by
  rw [point, List.cons_append]

theorem point_subset (p : Point Float) : point p ⊆ pointCharacters := by
  rw [point_eq]
  refine List.append_subset.2 ⟨List.cons_subset.2 ⟨by decide, ?_⟩, by decide⟩
  exact List.append_subset.2
    ⟨coordinate_subset p.x, List.cons_subset.2 ⟨by decide, coordinate_subset p.y⟩⟩

theorem point_subset_plainCharacters (p : Point Float) : point p ⊆ plainCharacters :=
  List.Subset.trans (point_subset p) (by decide)

theorem not_mem_point {c : Char} (hc : c ∉ pointCharacters) (p : Point Float) : c ∉ point p :=
  fun h => hc (point_subset p h)

theorem point_not_blank (p : Point Float) : ∀ c ∈ point p, isBlank c = false := fun _ hc =>
  eq_false_of_any (by decide : pointCharacters.any isBlank = false) (point_subset p hc)

theorem trim_point (p : Point Float) : trim (point p) = point p :=
  trim_of_no_blank (point_not_blank p)

/-- A point is read as what its coordinates spell, also with blanks around it. -/
theorem readVector_point {t : List Char} {p : Point Float} (h : trim t = point p) :
    readVector t = .ok p.spelled := by
  have hx := isNumeral_coordinate p.x
  have hy := isNumeral_coordinate p.y
  have hinside : inside? '(' ')' (point p) = some (coordinate p.x ++ ',' :: coordinate p.y) := by
    rw [point_eq, inside?_append]
  have hcut : cutAt [','] (coordinate p.x ++ ',' :: coordinate p.y) =
      some (coordinate p.x, coordinate p.y) :=
    cutAt_char (hx.not_mem (by decide)) _
  have hpoint : pointOf? (coordinate p.x) (coordinate p.y) = some p.spelled := by
    rw [pointOf?, trim_of_no_blank hx.not_blank, trim_of_no_blank hy.not_blank, hx.read?_eq,
      hy.read?_eq]
    rfl
  have hvector : vector? (point p) = some p.spelled := by
    rw [vector?, hinside, Option.bind_some, hcut, Option.bind_some]
    exact hpoint
  rw [readVector, h, hvector]

/-- The first point of a text is taken with nothing before it that opens a parenthesis. -/
theorem takeVector_point {s : List Char} (hs : '(' ∉ s) (p : Point Float) (r : List Char) :
    takeVector (s ++ point p ++ r) = .ok (p.spelled, r) := by
  have hopen : cutAt ['('] (s ++ point p ++ r) =
      some (s, (coordinate p.x ++ ',' :: coordinate p.y) ++ ')' :: r) := by
    have htext : s ++ point p ++ r =
        s ++ '(' :: ((coordinate p.x ++ ',' :: coordinate p.y) ++ ')' :: r) := by
      rw [point_eq]
      simp only [List.append_assoc, List.cons_append, List.nil_append]
    rw [htext]
    exact cutAt_char hs _
  have hclose : cutAt [')'] ((coordinate p.x ++ ',' :: coordinate p.y) ++ ')' :: r) =
      some (coordinate p.x ++ ',' :: coordinate p.y, r) := by
    refine cutAt_char (fun h => ?_) r
    rcases List.mem_append.1 h with h | h
    · exact (isNumeral_coordinate p.x).not_mem (by decide) h
    · rcases List.mem_cons.1 h with h | h
      · exact absurd h (by decide)
      · exact (isNumeral_coordinate p.y).not_mem (by decide) h
  have hread : readVector ('(' :: (coordinate p.x ++ ',' :: coordinate p.y) ++ [')']) =
      .ok p.spelled := by
    rw [← point_eq]
    exact readVector_point (trim_point p)
  rw [takeVector, hopen]
  dsimp only
  rw [hclose]
  dsimp only
  rw [hread]

/-! ### Paths -/

theorem unbroken_point (p : Point Float) : Unbroken (point p) := by
  have hx := unbroken_of_valid (isNumeral_coordinate p.x).valid
  have hy := unbroken_of_valid (isNumeral_coordinate p.y).valid
  have hopen : Unbroken ['('] := unbroken_of_not_mem (by decide)
  have hcomma : Unbroken [','] := unbroken_of_not_mem (by decide)
  have hclose : Unbroken [')'] := unbroken_of_not_mem (by decide)
  -- The hyphens of the coordinates are not next to each other, since something stands between them.
  have htext : point p = ['('] ++ coordinate p.x ++ [','] ++ coordinate p.y ++ [')'] := by
    rw [point_eq]
    simp only [List.append_assoc, List.cons_append, List.nil_append]
  rw [htext]
  exact (((hopen.append hx).append hcomma).append hy).append hclose

/-- A path is split into its points. -/
theorem pathPieces_path {points : List (Point Float)} (hne : points ≠ []) :
    pathPieces (path points) = points.map point := by
  refine pathPieces_joinWith (by simpa using hne) fun t ht => ?_
  obtain ⟨p, -, rfl⟩ := List.mem_map.1 ht
  exact unbroken_point p

/-- Pieces that are points with blanks around them are read as those points. -/
theorem readVertices_of_map_trim {pieces : List (List Char)} {points : List (Point Float)}
    (h : pieces.map trim = points.map point) (first : Option (Point Float)) :
    readVertices first pieces = .ok (points.map Point.spelled) := by
  induction pieces generalizing points first with
  | nil =>
    obtain rfl : points = [] := List.map_eq_nil_iff.1 h.symm
    rfl
  | cons piece pieces ih =>
    cases points with
    | nil => cases h
    | cons p points =>
      obtain ⟨hp, hrest⟩ := List.cons.inj h
      have hcycle : sameIgnoringCase (trim piece) "cycle".toList = false := by
        rw [hp, point_eq]
        simp [sameIgnoringCase]
      rw [readVertices.eq_def]
      dsimp only
      rw [hcycle, if_neg (by simp), readVector_point hp]
      dsimp only
      rw [ih hrest, List.map_cons]

/-- The body of a line. -/
theorem readPath_line (statement : List Char) (a b : Point Float) (s : Style) :
    readPath statement (point a ++ " -- ".toList ++ point b) s =
      .ok ⟨.line a.spelled b.spelled, { s with filled := false }⟩ := by
  have hblank : Unbroken [' '] := unbroken_of_not_mem (by decide)
  have htext : point a ++ " -- ".toList ++ point b =
      (point a ++ [' ']) ++ ['-', '-'] ++ ([' '] ++ point b) := by
    rw [show " -- ".toList = [' '] ++ ['-', '-'] ++ [' '] by decide]
    simp only [List.append_assoc]
  have hpieces : pathPieces (point a ++ " -- ".toList ++ point b) =
      [point a ++ [' '], [' '] ++ point b] := by
    rw [htext, ((unbroken_point a).append hblank).pathPieces_append,
      (hblank.append (unbroken_point b)).pathPieces_eq]
  have htrim : [point a ++ [' '], [' '] ++ point b].map trim = [a, b].map point := by
    simp only [List.map_cons, List.map_nil, List.singleton_append,
      trim_append_of_blank (c := ' ') (by decide), trim_cons_of_blank (c := ' ') (by decide),
      trim_point]
  rw [readPath, hpieces, if_neg (by simp), readVertices_of_map_trim htrim]
  rfl

/-- The body of a polyline. -/
theorem readPath_path (statement : List Char) {points : List (Point Float)} (h : 3 ≤ points.length)
    (s : Style) :
    readPath statement (path points) s = .ok ⟨.path (points.map Point.spelled), s⟩ := by
  have hne : points ≠ [] := by
    rintro rfl
    exact absurd h (by decide)
  have htrim : (points.map point).map trim = points.map point := by
    rw [List.map_map]
    exact List.map_congr_left fun p _ => trim_point p
  rw [readPath, pathPieces_path hne, if_neg (by rw [List.length_map]; omega),
    readVertices_of_map_trim htrim]
  -- Two vertices would have been taken for a line.
  rcases points with _ | ⟨p, _ | ⟨q, _ | ⟨r, points⟩⟩⟩
  · exact absurd rfl hne
  · exact absurd h (by simp)
  · exact absurd h (by simp)
  · rfl

/-! ### Circles and labels -/

theorem IsRadius.ne_nil {s : List Char} (h : IsRadius s) : s ≠ [] := by
  rintro rfl
  exact absurd h.read?_eq (by decide)

/-- A radius in centimetres is read as what it spells. -/
theorem readRadius_cm {radius : List Char} (h : IsRadius radius) :
    readRadius ('(' :: (radius ++ " cm".toList) ++ [')']) = .ok (Literal.value radius) := by
  have hletter : ∀ c ∈ radius, (!c.isAlpha) = true := by
    intro c hc
    rw [eq_false_of_any (by decide : ('-' :: '.' :: decimalDigits).any Char.isAlpha = false)
      (h.subset hc), Bool.not_false]
  have hblank : ∀ c ∈ radius, isBlank c = false := fun _ hc =>
    eq_false_of_any (by decide : ('-' :: '.' :: decimalDigits).any isBlank = false) (h.subset hc)
  have htrim : trim ('(' :: (radius ++ " cm".toList) ++ [')']) =
      '(' :: (radius ++ " cm".toList) ++ [')'] :=
    trim_of_ends (by simp; decide) (by rw [List.getLast?_concat]; simp; decide)
  have hinner : trim (radius ++ " cm".toList) = radius ++ " cm".toList := by
    refine trim_of_ends (fun c hc => ?_) (fun c hc => ?_)
    · rw [List.head?_append_of_ne_nil _ h.ne_nil] at hc
      exact hblank c (List.mem_of_mem_head? hc)
    · rw [List.getLast?_append_of_ne_nil _ (by decide)] at hc
      obtain rfl : 'm' = c := Option.some.inj hc
      decide
  have hnumber : (radius ++ " cm".toList).takeWhile (fun c => !c.isAlpha) = radius ++ [' '] := by
    rw [List.takeWhile_append_of_pos hletter]
    rfl
  have hunit : (radius ++ " cm".toList).dropWhile (fun c => !c.isAlpha) = "cm".toList := by
    rw [List.dropWhile_append_of_pos hletter]
    rfl
  have hfactor : unitFactor "cm".toList = .ok 1 := rfl
  rw [readRadius, htrim, inside?_append]
  dsimp only
  rw [hinner, hnumber, hunit, trim_append_of_blank (by decide), trim_of_no_blank hblank, h.read?_eq]
  dsimp only
  rw [if_neg h.not_lt, hfactor]
  dsimp only
  rw [Exact.mul_one]

theorem cutAt_circle (center : Point Float) (radius : List Char) :
    cutAt circleMarker (point center ++ " circle(".toList ++ radius ++ " cm)".toList) =
      some (point center ++ [' '], '(' :: (radius ++ " cm".toList) ++ [')']) := by
  have hmarker : 'c' ∉ point center ++ [' '] := by
    intro hc
    rcases List.mem_append.1 hc with hc | hc
    · exact not_mem_point (by decide) center hc
    · exact absurd hc (by decide)
  have htext : point center ++ " circle(".toList ++ radius ++ " cm)".toList =
      (point center ++ [' ']) ++ circleMarker ++ ('(' :: (radius ++ " cm".toList) ++ [')']) := by
    rw [show " circle(".toList = [' '] ++ circleMarker ++ ['('] by decide,
      show " cm)".toList = " cm".toList ++ [')'] by decide]
    simp only [List.append_assoc, List.cons_append, List.nil_append]
  rw [htext]
  exact cutAt_append hmarker _

/-- The radius decides whether the body of a circle is read. -/
theorem readCircle_body_of_radius (center : Point Float) {radius : List Char}
    {result : Except ReadError Float}
    (h : readRadius ('(' :: (radius ++ " cm".toList) ++ [')']) = result) (s : Style) :
    readCircle (point center ++ " circle(".toList ++ radius ++ " cm)".toList) s =
      result.map fun r => ⟨.circle center.spelled r,
        { s with frontArrow := false, backArrow := false, thickness := default }⟩ := by
  have hcenter : takeVector (point center ++ [' ']) = .ok (center.spelled, [' ']) :=
    takeVector_point (s := []) List.not_mem_nil center [' ']
  rw [readCircle, cutAt_circle]
  dsimp only
  rw [hcenter]
  dsimp only
  rw [h]
  cases result with
  | error e => rfl
  | ok r => rfl

/-- The body of a circle. -/
theorem readCircle_body (center : Point Float) {radius : List Char} (h : IsRadius radius)
    (s : Style) :
    readCircle (point center ++ " circle(".toList ++ radius ++ " cm)".toList) s =
      .ok ⟨.circle center.spelled (Literal.value radius),
        { s with frontArrow := false, backArrow := false, thickness := default }⟩ :=
  readCircle_body_of_radius center (readRadius_cm h) s

/-- The words for what is not finite start with a letter and are taken for a unit. -/
theorem readCircle_body_error (center : Point Float) {radius : List Char}
    (h : radius ∈ ["NaN".toList, "inf".toList, "-inf".toList]) (s : Style) :
    ∃ e, readCircle (point center ++ " circle(".toList ++ radius ++ " cm)".toList) s =
      .error e := by
  have hread : ∀ word ∈ ["NaN".toList, "inf".toList, "-inf".toList],
      ∃ text, readRadius ('(' :: (word ++ " cm".toList) ++ [')']) = badNumber text := by
    simp only [List.forall_mem_cons]
    exact ⟨⟨"NaN cm".toList, rfl⟩, ⟨"inf cm".toList, rfl⟩, ⟨"-inf cm".toList, rfl⟩, by simp⟩
  obtain ⟨text, hradius⟩ := hread radius h
  exact ⟨.malformedNumber (String.ofList text), readCircle_body_of_radius center hradius s⟩

/-- What comes before the text of a label in its body. -/
def labelHead (anchor : Point Float) : List Char := nodeMarker ++ [' '] ++ point anchor ++ [' ']

theorem labelHead_subset (anchor : Point Float) : labelHead anchor ⊆ plainCharacters :=
  List.append_subset.2
    ⟨List.append_subset.2 ⟨by decide, point_subset_plainCharacters anchor⟩, by decide⟩

theorem cutAt_label (anchor : Point Float) (r : List Char) :
    cutAt nodeMarker (labelHead anchor ++ r) = some ([], [' '] ++ point anchor ++ ' ' :: r) := by
  have htext : labelHead anchor ++ r = [] ++ nodeMarker ++ ([' '] ++ point anchor ++ ' ' :: r) := by
    simp only [labelHead, List.append_assoc, List.cons_append, List.nil_append]
  rw [htext]
  exact cutAt_append List.not_mem_nil _

/-- The body of a label. -/
theorem readLabel_body (anchor : Point Float) {text : List Char}
    (h : upToClosing? { depth := 1 } (text ++ ['}']) = some text) (c : Color) :
    readLabel (labelHead anchor ++ ('{' :: text ++ ['}'])) c =
      .ok ⟨.label anchor.spelled text, { color := c }⟩ := by
  have hbraced : braced? (' ' :: ('{' :: text ++ ['}'])) = some text := by
    have hopen : cutAt ['{'] (' ' :: ('{' :: text ++ ['}'])) = some ([' '], text ++ ['}']) :=
      cutAt_char (s := [' ']) (by decide) _
    rw [braced?, hopen, Option.bind_some]
    exact h
  rw [readLabel, cutAt_label]
  dsimp only
  rw [takeVector_point (by decide)]
  dsimp only
  rw [hbraced]

end Picture

end Draftboard
