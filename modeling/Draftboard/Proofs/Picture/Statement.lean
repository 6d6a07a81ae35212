import Draftboard.Proofs.Picture.Body
import Draftboard.Proofs.Picture.Concatenation
import Draftboard.Proofs.Picture.Visible

/-!
# Draftboard.Proofs.Picture.Statement

The text of a shape is one statement, and is read as what it draws.

* `Recoverable` says what it takes: a radius that is finite, three vertices of a polyline, and a
  label that is neither changed by `visible` nor ends before its closing brace (`RecoverableLabel`).
* The text of such a shape is legible and balanced, so a text of shapes falls apart into the texts
  of the shapes (`statementTexts_write`). For this the shapes need only be `Delimited`.
* Each of them is read as the figure that its numbers spell (`read_statementText`).
-/

namespace Draftboard

open Text Picture

/-- A label that is the same in any picture text it is written to. -/
structure Picture.RecoverableLabel (label : List Char) : Prop where
  legible : LegibleText ('{' :: label ++ ['}'])
  enclosed : upToClosing? { depth := 1 } (label ++ ['}']) = some label

/-- A geometry whose text is read back. -/
def Geometry.Recoverable : Geometry Float → Prop
  | .circle center rim => (center.distance rim).isFinite = true
  | .polyline vertices => 3 ≤ vertices.length
  | .label _ text => RecoverableLabel text.toList
  | .line .. | .curve .. => True

/-- A geometry whose text is one statement among others, whatever is read from it. -/
def Geometry.Delimited : Geometry Float → Prop
  | .polyline vertices => vertices ≠ []
  | .label _ text => RecoverableLabel text.toList
  | .line .. | .circle .. | .curve .. => True

theorem Geometry.Recoverable.delimited {g : Geometry Float} (h : g.Recoverable) : g.Delimited := by
  cases g with
  | polyline vertices =>
    rintro rfl
    exact absurd (show 3 ≤ 0 from h) (by decide)
  | label => exact h
  | line | circle | curve => trivial

/-- What the text of a geometry draws. -/
def Geometry.figure : Geometry Float → Figure
  | .line start stop => .line start.spelled stop.spelled
  | .circle center rim =>
    .circle center.spelled (Literal.value (Format.fixedPoint 2 (center.distance rim)))
  | .polyline vertices => .path (vertices.map Point.spelled)
  | .curve start controls stop =>
    .path ((Curve.sample (Curve.controlPolygon start controls stop)
      (Curve.exportSteps controls.length)).map Point.spelled)
  | .label anchor text => .label anchor.spelled text.toList

/-- What the text of a shape states. -/
def Shape.statement (s : Shape Float) : Statement := ⟨s.geometry.figure, s.style.normal s.kind⟩

namespace Picture

/-- The line of a shape without the semicolon that ends it. -/
def statementText (s : Shape Float) : List Char :=
  command s.style s.kind ++ modifierBlock s.style s.kind ++ ' ' :: body s.geometry

theorem writeShape_eq (s : Shape Float) : writeShape s = statementText s ++ ';' :: ['\n'] := rfl

/-! ### Commands -/

theorem takeCommand_command (s : Style) (k : Kind) (r : List Char) :
    takeCommand (command s k ++ r) =
      (decide (s.filled ∧ (k = .circle ∨ k = .polyline)), trimStart r) := by
  unfold command
  split
  · rename_i h
    rw [decide_eq_true h]
    rfl
  · rename_i h
    rw [decide_eq_false h]
    rfl

theorem balanced_command (s : Style) (k : Kind) : Balanced (command s k) := by
  have hfill : Balanced "illdraw".toList :=
    balanced_of_inert (by decide) (by decide) (by decide)
  have hdraw : Balanced "raw".toList := balanced_of_inert (by decide) (by decide) (by decide)
  unfold command
  split
  · exact (balanced_escape (c := 'f') (by decide)).append hfill
  · exact (balanced_escape (c := 'd') (by decide)).append hdraw

theorem head?_command_append (s : Style) (k : Kind) (r : List Char) :
    (command s k ++ r).head? = some '\\' := by
  unfold command
  split <;> rfl

/-- A command is no opening or closing of a picture. -/
theorem isEnvironmentLine_command (s : Style) (k : Kind) (r : List Char) :
    isEnvironmentLine (command s k ++ r) = false := by
  unfold command
  split <;> rfl

theorem command_subset (s : Style) (k : Kind) : command s k ⊆ '\\' :: plainCharacters := by
  unfold command
  split <;> decide

/-! ### Bodies -/

/-- A text that starts with an opening parenthesis and ends with a closing one. -/
def Parenthesized (t : List Char) : Prop := ∃ m, t = '(' :: m ++ [')']

theorem parenthesized_append {t u v : List Char} (ht : Parenthesized t) (hv : Parenthesized v) :
    Parenthesized (t ++ u ++ v) := by
  obtain ⟨m, rfl⟩ := ht
  obtain ⟨n, rfl⟩ := hv
  exact ⟨m ++ [')'] ++ u ++ '(' :: n, by simp only [List.append_assoc, List.cons_append]⟩

theorem parenthesized_point (p : Point Float) : Parenthesized (point p) := ⟨_, point_eq p⟩

theorem parenthesized_path {points : List (Point Float)} (hne : points ≠ []) :
    Parenthesized (path points) := by
  induction points with
  | nil => exact absurd rfl hne
  | cons p points ih =>
    by_cases hnil : points = []
    · subst hnil
      exact parenthesized_point p
    · rw [path, List.map_cons, joinWith_cons (by simpa using hnil)]
      exact parenthesized_append (parenthesized_point p) (ih hnil)

theorem path_subset (points : List (Point Float)) : path points ⊆ pointCharacters := by
  intro c hc
  rcases mem_of_mem_joinWith hc with hc | ⟨t, ht, hc⟩
  · exact (by decide : ['-', '-'] ⊆ pointCharacters) hc
  · obtain ⟨p, -, rfl⟩ := List.mem_map.1 ht
    exact point_subset p hc

/-- The points of the polyline that is written for a curve. -/
abbrev exported (start : Point Float) (controls : List (Point Float)) (stop : Point Float) :
    List (Point Float) :=
  Curve.sample (Curve.controlPolygon start controls stop) (Curve.exportSteps controls.length)

theorem three_le_length_exported (start : Point Float) (controls : List (Point Float))
    (stop : Point Float) : 3 ≤ (exported start controls stop).length := by
  rw [Curve.length_sample, Curve.exportSteps]
  omega

theorem body_line (start stop : Point Float) :
    body (.line start stop) = point start ++ " -- ".toList ++ point stop := rfl

theorem body_polyline (vertices : List (Point Float)) :
    body (.polyline vertices) = path vertices := rfl

theorem body_curve (start : Point Float) (controls : List (Point Float)) (stop : Point Float) :
    body (.curve start controls stop) = path (exported start controls stop) := rfl

theorem body_circle (center rim : Point Float) :
    body (.circle center rim) = point center ++ " circle(".toList ++
      Format.fixedPoint 2 (center.distance rim) ++ " cm)".toList := rfl

theorem body_label (anchor : Point Float) (text : String) :
    body (.label anchor text) = labelHead anchor ++ ('{' :: text.toList ++ ['}']) := by
  show nodeMarker ++ [' '] ++ point anchor ++ ' ' :: '{' :: text.toList ++ ['}'] = _
  simp only [labelHead, List.append_assoc, List.cons_append, List.nil_append]

/-- A body other than that of a label is plain. -/
theorem body_subset {g : Geometry Float} (hk : g.kind ≠ .label) : body g ⊆ plainCharacters := by
  have hpath : ∀ points, path points ⊆ plainCharacters := fun points =>
    List.Subset.trans (path_subset points) (by decide)
  cases g with
  | line start stop =>
    exact List.append_subset.2 ⟨List.append_subset.2
      ⟨point_subset_plainCharacters start, by decide⟩, point_subset_plainCharacters stop⟩
  | circle center rim =>
    have hradius := List.Subset.trans (radiusText_subset center rim)
      (by decide : '-' :: figures ⊆ plainCharacters)
    rw [body_circle]
    exact List.append_subset.2 ⟨List.append_subset.2 ⟨List.append_subset.2
      ⟨point_subset_plainCharacters center, by decide⟩, hradius⟩, by decide⟩
  | polyline vertices => exact hpath vertices
  | curve start controls stop => exact hpath _
  | label anchor text => exact absurd rfl hk

/-- A body starts and ends with a character that is not blank, and does not start like a modifier
block. -/
theorem body_ends {g : Geometry Float} (h : g.Delimited) :
    ∃ c m d, body g = c :: (m ++ [d]) ∧ isBlank c = false ∧ c ≠ '[' ∧ isBlank d = false := by
  have hpar : ∀ {t}, Parenthesized t →
      ∃ c m d, t = c :: (m ++ [d]) ∧ isBlank c = false ∧ c ≠ '[' ∧ isBlank d = false := by
    rintro t ⟨m, rfl⟩
    exact ⟨'(', m, ')', List.cons_append, by decide, by decide, by decide⟩
  cases g with
  | line start stop =>
    exact hpar (parenthesized_append (parenthesized_point start) (parenthesized_point stop))
  | circle center rim =>
    refine hpar ?_
    obtain ⟨m, hm⟩ := parenthesized_point center
    refine ⟨m ++ [')'] ++ " circle(".toList ++ Format.fixedPoint 2 (center.distance rim) ++
      " cm".toList, ?_⟩
    rw [body_circle, hm, show " cm)".toList = " cm".toList ++ [')'] by decide]
    simp only [List.append_assoc, List.cons_append]
  | polyline vertices => exact hpar (parenthesized_path h)
  | curve start controls stop =>
    refine hpar (parenthesized_path ?_)
    intro hnil
    have hlength := three_le_length_exported start controls stop
    rw [exported, hnil] at hlength
    exact absurd hlength (by simp)
  | label anchor text =>
    have hhead : labelHead anchor = 'n' :: ("ode at ".toList ++ point anchor ++ [' ']) := rfl
    refine ⟨'n', "ode at ".toList ++ point anchor ++ [' '] ++ '{' :: text.toList, '}', ?_,
      by decide, by decide, by decide⟩
    rw [body_label, hhead, List.append_assoc _ _ ['}']]
    rfl

/-! ### The text of a shape -/

variable {s : Shape Float}

theorem statementText_label {anchor : Point Float} {text : String}
    (h : s.geometry = .label anchor text) :
    statementText s = command s.style s.kind ++ modifierBlock s.style s.kind ++
      ' ' :: labelHead anchor ++ ('{' :: text.toList ++ ['}']) := by
  rw [statementText, h, body_label]
  simp only [List.append_assoc, List.cons_append]

/-- What a shape is written with before its body or the brace of its label. -/
theorem head_subset (style : Style) (k : Kind) {t : List Char} (ht : t ⊆ plainCharacters) :
    command style k ++ modifierBlock style k ++ ' ' :: t ⊆ '\\' :: plainCharacters := by
  have hplain : ∀ {t : List Char}, t ⊆ plainCharacters → t ⊆ '\\' :: plainCharacters := fun h =>
    List.Subset.trans h (List.subset_cons_self _ _)
  exact List.append_subset.2
    ⟨List.append_subset.2 ⟨command_subset style k, hplain (modifierBlock_subset style k)⟩,
      List.cons_subset.2 ⟨by decide, hplain ht⟩⟩

/-- A line without a comment that is no environment line is legible. -/
theorem legibleText_of_line {t : List Char} (hlf : '\n' ∉ t) (hcr : '\r' ∉ t) (hpercent : '%' ∉ t)
    (henv : isEnvironmentLine t = false) : LegibleText t := by
  have hsplit : splitWhere (· == '\n') t = [t] := by
    refine splitWhere_of_none fun c hc => beq_eq_false_iff_ne.2 ?_
    rintro rfl
    exact hlf hc
  unfold LegibleText
  rw [hsplit]
  intro line hl
  obtain rfl := List.mem_singleton.1 hl
  exact ⟨⟨beforeComment_of_not_mem hpercent _, henv⟩, fun hlast => hcr (List.mem_of_getLast? hlast)⟩

/-- A line of plain characters that is no environment line is legible. -/
theorem legibleText_of_subset {t : List Char} (ht : t ⊆ ';' :: '\\' :: plainCharacters)
    (henv : isEnvironmentLine t = false) : LegibleText t :=
  legibleText_of_line (fun hc => absurd (ht hc) (by decide)) (fun hc => absurd (ht hc) (by decide))
    (fun hc => absurd (ht hc) (by decide)) henv

theorem legibleText_statementText (h : s.geometry.Delimited) :
    LegibleText (statementText s ++ [';']) := by
  have henv : ∀ r, isEnvironmentLine
      (command s.style s.kind ++ modifierBlock s.style s.kind ++ ' ' :: r) = false := by
    intro r
    rw [List.append_assoc]
    exact isEnvironmentLine_command _ _ _
  -- Only a label can have several lines. The first of them starts with the command.
  by_cases hk : s.geometry.kind = .label
  · cases hg : s.geometry with
    | label anchor text =>
      rw [hg] at h
      rw [statementText_label hg]
      have hhead := head_subset s.style s.kind (labelHead_subset anchor)
      refine LegibleText.append_semicolon (LegibleText.append_left h.legible ?_ ?_ fun r => ?_)
      · exact fun hc => absurd (hhead hc) (by decide)
      · exact fun hc => absurd (hhead hc) (by decide)
      · rw [List.append_assoc]
        exact henv _
    | line | circle | polyline | curve => rw [hg] at hk; cases hk
  · refine LegibleText.append_semicolon (legibleText_of_subset ?_ (henv _))
    exact List.Subset.trans (head_subset s.style s.kind (body_subset hk))
      (List.subset_cons_self _ _)

theorem balanced_of_subset {t : List Char} (h : t ⊆ plainCharacters) : Balanced t :=
  balanced_of_inert (fun hc => absurd (h hc) (by decide)) (fun hc => absurd (h hc) (by decide))
    (fun hc => absurd (h hc) (by decide))

theorem balanced_statementText (h : s.geometry.Delimited) : Balanced (statementText s) := by
  have hhead : ∀ {t}, t ⊆ plainCharacters →
      Balanced (command s.style s.kind ++ modifierBlock s.style s.kind ++ ' ' :: t) := by
    intro t ht
    refine ((balanced_command _ _).append ?_).append ?_
    · exact balanced_of_subset (modifierBlock_subset _ _)
    · exact balanced_of_subset (List.cons_subset.2 ⟨by decide, ht⟩)
  by_cases hk : s.geometry.kind = .label
  · cases hg : s.geometry with
    | label anchor text =>
      rw [hg] at h
      rw [statementText_label hg]
      exact (hhead (labelHead_subset anchor)).append (balanced_braces h.enclosed)
    | line | circle | polyline | curve => rw [hg] at hk; cases hk
  · exact hhead (body_subset hk)

theorem trim_statementText (h : s.geometry.Delimited) :
    trim (statementText s) = statementText s := by
  obtain ⟨c, m, d, hbody, -, -, hd⟩ := body_ends h
  refine trim_of_ends (fun a ha => ?_) (fun a ha => ?_)
  · rw [statementText, List.append_assoc, head?_command_append] at ha
    obtain rfl := Option.some.inj ha
    decide
  · have htext : statementText s =
        (command s.style s.kind ++ modifierBlock s.style s.kind ++ ' ' :: c :: m) ++ [d] := by
      rw [statementText, hbody]
      simp only [List.append_assoc, List.cons_append]
    have hlast : (statementText s).getLast? = some d := by
      rw [htext, List.getLast?_concat]
    rw [hlast] at ha
    obtain rfl := Option.some.inj ha
    exact hd

/-! ### The text of several shapes -/

/-- A line that is one statement is taken off a picture text. -/
theorem statementTexts_append {t : List Char} (hl : LegibleText (t ++ [';'])) (hb : Balanced t)
    (htrim : trim t = t) (hne : t ≠ []) (r : List Char) :
    statementTexts (t ++ ';' :: '\n' :: r) = t :: statementTexts r := by
  have hvisible := visible_append hl r
  rw [List.append_assoc, List.append_assoc, List.singleton_append, List.singleton_append] at hvisible
  rw [statementTexts, hvisible, hb.statements_append, List.map_cons, htrim,
    List.filter_cons_of_pos (by simpa using hne)]
  congr 1
  split
  · rename_i hnil
    rw [statementTexts, visible, hnil]
    rfl
  -- The line feed in front is trimmed off the first statement of what is left.
  · exact trimmedStatements_newline _

theorem statementTexts_write {shapes : List (Shape Float)}
    (h : ∀ s ∈ shapes, s.geometry.Delimited) :
    statementTexts (write shapes) = shapes.map statementText := by
  induction shapes with
  | nil => rfl
  | cons s shapes ih =>
    obtain ⟨hs, hrest⟩ := List.forall_mem_cons.1 h
    have hne : statementText s ≠ [] := by
      unfold statementText
      simp
    have hwrite : write (s :: shapes) = statementText s ++ ';' :: '\n' :: write shapes := by
      rw [write, List.flatMap_cons, writeShape_eq, List.append_assoc]
      rfl
    rw [hwrite, statementTexts_append (legibleText_statementText hs) (balanced_statementText hs)
      (trim_statementText hs) hne, ih hrest, List.map_cons]

/-! ### Reading a statement -/

theorem takeCommand_statementText (s : Shape Float) :
    takeCommand (statementText s) =
      (decide (s.style.filled ∧ (s.kind = .circle ∨ s.kind = .polyline)),
        trimStart (modifierBlock s.style s.kind ++ ' ' :: body s.geometry)) := by
  rw [statementText, List.append_assoc]
  exact takeCommand_command _ _ _

/-- When the modifiers have been taken off, the body is left. -/
theorem takeModifiers_body (h : s.geometry.Delimited) :
    takeModifiers (trimStart (modifierBlock s.style s.kind ++ ' ' :: body s.geometry)) =
      .ok ({ s.style.normal s.kind with filled := false }, body s.geometry) := by
  obtain ⟨c, m, d, hbody, hc, hopen, -⟩ := body_ends h
  rw [hbody]
  exact takeModifiers_modifierBlock s.style s.kind hc hopen (m ++ [d])

/-- Of the text of a shape the body is read, by the first marker word that it holds. -/
theorem read_statementText_eq (h : s.geometry.Delimited) :
    Statement.read (statementText s) =
      let style : Style := { s.style.normal s.kind with
        filled := decide (s.style.filled ∧ (s.kind = .circle ∨ s.kind = .polyline)) }
      if occursIn nodeMarker (body s.geometry) then readLabel (body s.geometry) style.color
      else if occursIn circleMarker (body s.geometry) then readCircle (body s.geometry) style
      else if occursIn arcMarker (body s.geometry) then
        .error (.unsupported (String.ofList (statementText s)))
      else readPath (statementText s) (body s.geometry) style := by
  rw [Statement.read, takeCommand_statementText]
  dsimp only
  rw [takeModifiers_body h]

/-- A circle is not taken for a label. -/
theorem occursIn_nodeMarker_circle (center rim : Point Float) :
    occursIn nodeMarker (body (.circle center rim)) = false := by
  refine occursIn_eq_false (c := 'd') (by decide) fun hd => ?_
  rw [body_circle] at hd
  rcases List.mem_append.1 hd with hd | hd
  · rcases List.mem_append.1 hd with hd | hd
    · rcases List.mem_append.1 hd with hd | hd
      · exact not_mem_point (by decide) center hd
      · exact absurd hd (by decide)
    · exact absurd (radiusText_subset center rim hd) (by decide)
  · exact absurd hd (by decide)

/-- The body of a circle is read as one, whatever its radius is. -/
theorem read_statementText_circle {center rim : Point Float}
    (hg : s.geometry = .circle center rim) :
    Statement.read (statementText s) =
      readCircle (point center ++ " circle(".toList ++
        Format.fixedPoint 2 (center.distance rim) ++ " cm)".toList)
      { s.style.normal s.kind with
        filled := decide (s.style.filled ∧ (s.kind = .circle ∨ s.kind = .polyline)) } := by
  have hdelimited : s.geometry.Delimited := by rw [hg]; trivial
  rw [read_statementText_eq hdelimited, hg, occursIn_nodeMarker_circle, body_circle,
    occursIn_of_cutAt (cutAt_circle _ _)]
  rfl

/-- The letters of the marker words stand in no text of points. -/
theorem no_marker_of_points {t : List Char} (ht : t ⊆ ' ' :: pointCharacters) :
    occursIn nodeMarker t = false ∧ occursIn circleMarker t = false ∧
      occursIn arcMarker t = false :=
  ⟨occursIn_eq_false (c := 'd') (by decide) fun h => absurd (ht h) (by decide),
    occursIn_eq_false (c := 'c') (by decide) fun h => absurd (ht h) (by decide),
    occursIn_eq_false (c := 'c') (by decide) fun h => absurd (ht h) (by decide)⟩

/-- A body of points is read as a path. -/
theorem read_statementText_of_points (h : s.geometry.Delimited)
    (hpoints : body s.geometry ⊆ ' ' :: pointCharacters) :
    Statement.read (statementText s) = readPath (statementText s) (body s.geometry)
      { s.style.normal s.kind with
        filled := decide (s.style.filled ∧ (s.kind = .circle ∨ s.kind = .polyline)) } := by
  obtain ⟨hnode, hcircle, harc⟩ := no_marker_of_points hpoints
  rw [read_statementText_eq h, hnode, hcircle, harc]
  rfl

/-- The text of a shape is read as the figure that it spells, in the style that is left. -/
theorem read_statementText (h : s.geometry.Recoverable) :
    Statement.read (statementText s) = .ok s.statement := by
  have hpoint : ∀ p, point p ⊆ ' ' :: pointCharacters := fun p =>
    List.Subset.trans (point_subset p) (List.subset_cons_self _ _)
  have hpath : ∀ points, path points ⊆ ' ' :: pointCharacters := fun points =>
    List.Subset.trans (path_subset points) (List.subset_cons_self _ _)
  cases hg : s.geometry with
  | line start stop =>
    have hk : s.kind = .line := congrArg Geometry.kind hg
    have hpoints : body s.geometry ⊆ ' ' :: pointCharacters := by
      rw [hg, body_line]
      exact List.append_subset.2 ⟨List.append_subset.2 ⟨hpoint start, by decide⟩, hpoint stop⟩
    rw [read_statementText_of_points h.delimited hpoints, hg, body_line, readPath_line,
      Shape.statement, hk, hg]
    rfl
  | polyline vertices =>
    have hk : s.kind = .polyline := congrArg Geometry.kind hg
    have hpoints : body s.geometry ⊆ ' ' :: pointCharacters := by
      rw [hg]
      exact hpath vertices
    have hlength : 3 ≤ vertices.length := by
      rw [hg] at h
      exact h
    rw [read_statementText_of_points h.delimited hpoints, hg, body_polyline,
      readPath_path _ hlength, Shape.statement, hk, hg]
    simp [Geometry.figure, Style.normal]
  | curve start controls stop =>
    have hk : s.kind = .curve := congrArg Geometry.kind hg
    have hpoints : body s.geometry ⊆ ' ' :: pointCharacters := by
      rw [hg]
      exact hpath (exported start controls stop)
    rw [read_statementText_of_points h.delimited hpoints, hg, body_curve,
      readPath_path _ (three_le_length_exported start controls stop), Shape.statement, hk, hg]
    simp [Geometry.figure, Style.normal]
  | circle center rim =>
    have hk : s.kind = .circle := congrArg Geometry.kind hg
    have hfinite : (center.distance rim).isFinite = true := by
      rw [hg] at h
      exact h
    rw [read_statementText_circle hg, readCircle_body center (isRadius_fixedPoint hfinite),
      Shape.statement, hk, hg]
    simp [Geometry.figure, Style.normal, show (default : Thickness) = .thin from rfl]
  | label anchor text =>
    have hk : s.kind = .label := congrArg Geometry.kind hg
    have hlabel : RecoverableLabel text.toList := by
      rw [hg] at h
      exact h
    rw [read_statementText_eq h.delimited, hg, body_label, occursIn_of_cutAt (cutAt_label _ _)]
    dsimp only
    rw [if_pos rfl, readLabel_body anchor hlabel.enclosed, Shape.statement, hk, hg]
    rfl

/-- A circle whose radius is not finite is not read. -/
theorem read_statementText_error {center rim : Point Float} (hg : s.geometry = .circle center rim)
    (h : (center.distance rim).isFinite = false) :
    ∃ e, Statement.read (statementText s) = .error e := by
  rw [read_statementText_circle hg]
  exact readCircle_body_error center (Format.fixedPoint_of_not_isFinite h 2) _

theorem readEach_map {β γ : Type} {reader : List Char → Except ReadError β} {text : γ → List Char}
    {value : γ → β} {xs : List γ} (h : ∀ x ∈ xs, reader (text x) = .ok (value x)) :
    readEach reader (xs.map text) = .ok (xs.map value) := by
  induction xs with
  | nil => rfl
  | cons x xs ih =>
    obtain ⟨hx, hxs⟩ := List.forall_mem_cons.1 h
    rw [List.map_cons, readEach, hx]
    dsimp only
    rw [ih hxs, List.map_cons]

/-- A text of shapes states what their texts state, in order. -/
theorem readStatements_write {shapes : List (Shape Float)}
    (h : ∀ s ∈ shapes, s.geometry.Recoverable) :
    readStatements (write shapes) = .ok (shapes.map Shape.statement) := by
  rw [readStatements, statementTexts_write fun s hs => (h s hs).delimited]
  exact readEach_map fun s hs => read_statementText (h s hs)

end Picture

end Draftboard
