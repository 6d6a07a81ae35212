import Draftboard.Proofs.Picture.Extract

/-!
# Draftboard.Proofs.Picture.Grammar

The texts that a statement is read from.

* A path is read exactly if its body is vectors, or the word `cycle`, with double hyphens between them
  (`readPath_eq_ok_iff`). Each vector that is written in it gives a vertex (`PathText.mem_points`).
* The readers of labels and circles search for what they need. What they skip on the way is a parameter
  of the grammar `BodyText`: with blanks only it is the grammar of the bodies that are written, and with
  anything it is what is read (`Statement.read_eq_ok_iff`).
* So a statement may hold more than it draws (`skips_vectors`).
-/

namespace Draftboard

open Text

namespace Picture

variable {p : Point Float} {v t : List Char}

/-! ### Paths -/

/-- A piece of a path that stands for the first vertex. -/
def IsCycle (t : List Char) : Prop := sameIgnoringCase (trim t) "cycle".toList = true

/-- A piece of a path that stands for a point: its vector, or the word for the first vertex. -/
def PathItem (start : Point Float) (t : List Char) (p : Point Float) : Prop :=
  VectorText p t ∨ p = start ∧ IsCycle t

/-- The text of a path: pieces with double hyphens between them. Two are a line. -/
inductive PathText (style : Style) : List Char → Statement → Prop
  | line {head item : List Char} {start stop : Point Float} (hhead : VectorText start head)
      (hitem : PathItem start item stop) :
      PathText style (joinWith ['-', '-'] [head, item])
        ⟨.line start stop, { style with filled := false }⟩
  | path {head : List Char} {items : List (List Char)} {start : Point Float}
      {points : List (Point Float)} (hhead : VectorText start head)
      (hitems : List.Forall₂ (PathItem start) items points)
      (hlength : 2 ≤ items.length) :
      PathText style (joinWith ['-', '-'] (head :: items)) ⟨.path (start :: points), style⟩

theorem IsCycle.not_mem (h : IsCycle t) {c : Char} (hblank : isBlank c = false)
    (hc : c.toLower ∉ "cycle".toList.map Char.toLower) : c ∉ t := fun hmem =>
  hc (eq_of_beq h ▸ List.mem_map_of_mem ((padded_trim t).mem hblank hmem))

theorem readVector_vectorOf_iff {start : Point Float} {head item : List Char}
    (hhead : VectorText start head) :
    readVector (vectorOf head item) = .ok p ↔ PathItem start item p := by
  unfold vectorOf PathItem
  split
  · rename_i hcycle
    have hnone : ¬ VectorText p item := by
      rw [← readVector_eq_ok_iff_vectorText, readVector_of_cycle hcycle]
      exact nofun
    rw [readVector_eq_ok_iff_vectorText.2 hhead, Except.ok.injEq]
    exact ⟨fun h => .inr ⟨h.symm, hcycle⟩, fun h => (h.resolve_left hnone).1.symm⟩
  · rename_i hcycle
    rw [readVector_eq_ok_iff_vectorText]
    exact ⟨.inl, fun h => h.resolve_right fun hc => hcycle hc.2⟩

theorem readVertices_eq_ok_iff {head : List Char} {items : List (List Char)}
    {vertices : List (Point Float)} :
    readVertices none (head :: items) = .ok vertices ↔ ∃ start points,
      vertices = start :: points ∧ VectorText start head ∧
        List.Forall₂ (PathItem start) items points := by
  have hfirst : vectorOf head head = head := ite_self _
  rw [readVertices_eq, readEach_eq_ok_iff, pathVectors, List.headD_cons, List.map_cons, hfirst]
  constructor
  · intro h
    cases h with
    | cons hhead hitems =>
      have hstart := readVector_eq_ok_iff_vectorText.1 hhead
      rw [List.forall₂_map_left_iff] at hitems
      exact ⟨_, _, rfl, hstart, hitems.imp fun _ _ h => (readVector_vectorOf_iff hstart).1 h⟩
  · rintro ⟨start, points, rfl, hstart, hitems⟩
    refine .cons (readVector_eq_ok_iff_vectorText.2 hstart) ?_
    rw [List.forall₂_map_left_iff]
    exact hitems.imp fun _ _ h => (readVector_vectorOf_iff hstart).2 h

theorem unbroken_of_padded {s : List Char} (h : Padded s t) (hs : Unbroken s) : Unbroken t := by
  have hblank : ∀ {a : List Char}, AllBlank a → Unbroken a := fun ha =>
    unbroken_of_not_mem (ha.not_mem (by decide))
  obtain ⟨a, b, rfl, ha, hb⟩ := h
  exact ((hblank ha).append hs).append (hblank hb)

theorem VectorText.unbroken (h : VectorText p t) : Unbroken t := by
  obtain ⟨v, ⟨x, y, u, w, rfl, hu, hw, hx, hy⟩, hpadded⟩ := h
  have hliteral : ∀ {s u : List Char} {a : Float}, Padded s u → Literal.read? s = some a →
      Unbroken u := fun hu hs =>
    unbroken_of_padded hu (unbroken_of_valid (Literal.valid_of_read? hs))
  have hchar : ∀ {c : Char}, '-' ≠ c → Unbroken [c] := fun hc =>
    unbroken_of_not_mem fun hmem => hc (List.mem_singleton.1 hmem)
  have htext : '(' :: (u ++ ',' :: w) ++ [')'] = ['('] ++ u ++ [','] ++ w ++ [')'] := by
    simp only [List.append_assoc, List.cons_append, List.nil_append]
  rw [htext] at hpadded
  exact unbroken_of_padded hpadded (((((hchar (by decide)).append (hliteral hu hx)).append
    (hchar (by decide))).append (hliteral hw hy)).append (hchar (by decide)))

theorem PathItem.unbroken {start : Point Float} (h : PathItem start t p) : Unbroken t :=
  h.elim VectorText.unbroken fun h => unbroken_of_not_mem (h.2.not_mem (by decide) (by decide))

/-- The pieces of the text of a path, and the vertices that are drawn. -/
theorem PathText.exists_pieces {style : Style} {body : List Char} {st : Statement}
    (h : PathText style body st) : ∃ head items start points, items ≠ [] ∧
      body = joinWith ['-', '-'] (head :: items) ∧ VectorText start head ∧
      List.Forall₂ (PathItem start) items points ∧
      st.figure.points = start :: points := by
  cases h with
  | line hhead hitem => exact ⟨_, _, _, _, List.cons_ne_nil _ _, rfl, hhead, .cons hitem .nil, rfl⟩
  | path hhead hitems hlength =>
    refine ⟨_, _, _, _, ?_, rfl, hhead, hitems, rfl⟩
    rintro rfl
    exact absurd hlength (by decide)

/-- The pieces of a path are those that its text is made of. -/
theorem pathPieces_of_pieces {head : List Char} {items : List (List Char)} {start : Point Float}
    {points : List (Point Float)} (hhead : VectorText start head)
    (hitems : List.Forall₂ (PathItem start) items points) :
    pathPieces (joinWith ['-', '-'] (head :: items)) = head :: items := by
  refine pathPieces_joinWith (List.cons_ne_nil _ _)
    (List.forall_mem_cons.2 ⟨hhead.unbroken, fun t ht => ?_⟩)
  obtain ⟨p, -, hp⟩ := exists_of_forall₂ hitems ht
  exact hp.unbroken

theorem pathText_of_readPath {statement body : List Char} {style : Style} {st : Statement}
    (h : readPath statement body style = .ok st) : PathText style body st := by
  have hbody := joinWith_pathPieces body
  cases hpieces : pathPieces body with
  | nil => exact absurd hpieces (pathPieces_ne_nil body)
  | cons head items =>
    rw [hpieces] at hbody
    unfold readPath at h
    rw [hpieces] at h
    dsimp only at h
    split at h
    · cases h
    · rename_i hlength
      split at h
      · cases h
      · rename_i hread
        obtain rfl := Except.ok.inj h
        obtain ⟨start, points, hvertices, hhead, hitems⟩ := readVertices_eq_ok_iff.1 hread
        obtain ⟨rfl, rfl⟩ := List.cons.inj hvertices
        cases hitems with
        | cons hitem hnil =>
          cases hnil
          rw [← hbody]
          exact .line hhead hitem
      · rename_i vertices hpair hread
        obtain rfl := Except.ok.inj h
        obtain ⟨start, points, rfl, hhead, hitems⟩ := readVertices_eq_ok_iff.1 hread
        rw [← hbody]
        refine .path hhead hitems ?_
        -- One item would make it a line.
        rcases hitems with _ | ⟨hitem, _ | ⟨hnext, hrest⟩⟩
        · exact absurd (Nat.lt_succ_self 1) hlength
        · exact absurd rfl (hpair _ _)
        · simp

theorem PathText.readPath_eq {body : List Char} {style : Style} {st : Statement}
    (h : PathText style body st) (statement : List Char) :
    readPath statement body style = .ok st := by
  cases h with
  | @line head item start stop hhead hitem =>
    have hitems : List.Forall₂ (PathItem start) [item] [stop] := .cons hitem .nil
    rw [readPath, pathPieces_of_pieces hhead hitems, if_neg (by simp),
      readVertices_eq_ok_iff.2 ⟨_, _, rfl, hhead, hitems⟩]
  | path hhead hitems hlength =>
    rw [readPath, pathPieces_of_pieces hhead hitems, if_neg (by rw [List.length_cons]; omega),
      readVertices_eq_ok_iff.2 ⟨_, _, rfl, hhead, hitems⟩]
    rcases hitems with _ | ⟨hitem, _ | ⟨hnext, hrest⟩⟩
    · exact absurd hlength (by simp)
    · exact absurd hlength (by simp)
    · rfl

/-- A path is read exactly if its body is the text of one. -/
theorem readPath_eq_ok_iff {statement body : List Char} {style : Style} {st : Statement} :
    readPath statement body style = .ok st ↔ PathText style body st :=
  ⟨pathText_of_readPath, fun h => h.readPath_eq statement⟩

/-- A character that neither a literal nor the word `cycle` has is in no path. -/
theorem PathText.not_mem {style : Style} {body : List Char} {st : Statement}
    (h : PathText style body st) {c : Char} (hblank : isBlank c = false)
    (hc : c ∉ '-' :: '(' :: ')' :: ',' :: Literal.characters)
    (hcycle : c.toLower ∉ "cycle".toList.map Char.toLower) : c ∉ body := by
  obtain ⟨hhyphen, hc⟩ := List.ne_and_not_mem_of_not_mem_cons hc
  have hvector : ∀ {p t}, VectorText p t → c ∉ t := by
    rintro p t ⟨v, hv, hpadded⟩ hmem
    exact hv.not_mem hblank hc (hpadded.mem hblank hmem)
  obtain ⟨head, items, start, points, -, rfl, hhead, hitems, -⟩ := h.exists_pieces
  intro hmem
  rcases mem_of_mem_joinWith hmem with hc | ⟨t, ht, hc⟩
  · exact absurd hc (by simpa using hhyphen)
  · rcases List.mem_cons.1 ht with rfl | ht
    · exact hvector hhead hc
    · obtain ⟨p, -, hvec | ⟨-, hcyc⟩⟩ := exists_of_forall₂ hitems ht
      · exact hvector hvec hc
      · exact hcyc.not_mem hblank hcycle hc

/-! ### Bodies -/

/-- The text of a body and what it draws. What stands between the parts of a label and of a circle, and
around them, is skipped; the conditions on it hold by themselves where only blanks may be. -/
inductive BodyText (skipped : List Char → Prop) (style : Style) : List Char → Statement → Prop
  | label {body before gap v between text after : List Char} {anchor : Point Float}
      (hnode : FirstAt nodeMarker before
        (gap ++ v ++ (between ++ '{' :: text ++ '}' :: after)) body)
      (hanchor : VectorLiteral anchor v) (htext : Enclosed { depth := 1 } text)
      (hgap : '(' ∉ gap) (hbetween : '{' ∉ between)
      (hskipped : ∀ s ∈ [before, gap, between, after], skipped s) :
      BodyText skipped style body ⟨.label anchor text, { color := style.color }⟩
  | circle {body before v between length : List Char} {center : Point Float} {radius : Float}
      (hcircle : FirstAt circleMarker (before ++ v ++ between) length body)
      (hcenter : VectorLiteral center v) (hlength : LengthText radius length)
      (hbefore : '(' ∉ before) (hnode : ¬ nodeMarker <:+: body)
      (hskipped : ∀ s ∈ [before, between], skipped s) :
      BodyText skipped style body ⟨.circle center radius,
        { style with frontArrow := false, backArrow := false, thickness := default }⟩
  | path {body : List Char} {st : Statement} (hpath : PathText style body st) :
      BodyText skipped style body st

variable {body : List Char} {style : Style} {st : Statement}

/-- Anything may be skipped. -/
abbrev Anything (_ : List Char) : Prop := True

theorem readLabel_eq_ok_iff (style : Style) (hnode : nodeMarker <:+: body) :
    readLabel body style.color = .ok st ↔ BodyText Anything style body st := by
  obtain ⟨⟨before, rest⟩, hcut⟩ := Option.isSome_iff_exists.1 (occursIn_iff.2 hnode)
  unfold readLabel
  rw [hcut]
  dsimp only
  constructor
  · intro h
    split at h
    · cases h
    · rename_i anchor rest' htake
      split at h
      · rename_i text hbraced
        obtain rfl := Except.ok.inj h
        obtain ⟨gap, v, rfl, hgap, hanchor⟩ := takeVector_eq_ok_iff.1 htake
        obtain ⟨between, after, rfl, hbetween, htext⟩ := braced?_eq_some_iff.1 hbraced
        exact .label (cutAt_eq_some_iff.1 hcut) hanchor htext hgap hbetween fun _ _ => trivial
      · cases h
  · intro h
    cases h with
    | label hfirst hanchor htext hgap hbetween =>
      have hsame := cutAt_eq_some_iff.2 hfirst
      rw [hcut] at hsame
      obtain ⟨-, rfl⟩ := Prod.mk.inj (Option.some.inj hsame)
      rw [takeVector_eq_ok_iff.2 ⟨_, _, rfl, hgap, hanchor⟩]
      dsimp only
      rw [braced?_eq_some_iff.2 ⟨_, _, rfl, hbetween, htext⟩]
    | circle _ _ _ _ hnone => exact absurd hnode hnone
    | path hpath => exact absurd (hnode.mem (by decide)) (hpath.not_mem (c := 'o') (by decide)
        (by decide) (by decide))

theorem readCircle_eq_ok_iff (hnode : ¬ nodeMarker <:+: body) (hcircle : circleMarker <:+: body) :
    readCircle body style = .ok st ↔ BodyText Anything style body st := by
  obtain ⟨⟨left, right⟩, hcut⟩ := Option.isSome_iff_exists.1 (occursIn_iff.2 hcircle)
  unfold readCircle
  rw [hcut]
  dsimp only
  constructor
  · intro h
    split at h
    · cases h
    · rename_i center rest htake
      split at h
      · cases h
      · rename_i radius hradius
        obtain rfl := Except.ok.inj h
        obtain ⟨before, v, rfl, hbefore, hcenter⟩ := takeVector_eq_ok_iff.1 htake
        exact .circle (cutAt_eq_some_iff.1 hcut) hcenter (readRadius_eq_ok_iff.1 hradius) hbefore
          hnode fun _ _ => trivial
  · intro h
    cases h with
    | label hfirst => exact absurd hfirst.occurs hnode
    | circle hfirst hcenter hlength hbefore =>
      have hsame := cutAt_eq_some_iff.2 hfirst
      rw [hcut] at hsame
      obtain ⟨rfl, rfl⟩ := Prod.mk.inj (Option.some.inj hsame)
      rw [takeVector_eq_ok_iff.2 ⟨_, _, rfl, hbefore, hcenter⟩]
      dsimp only
      rw [readRadius_eq_ok_iff.2 hlength]
    | path hpath => exact absurd (hcircle.mem (by decide)) (hpath.not_mem (c := 'r') (by decide)
        (by decide) (by decide))

/-- Without a marker word the body is that of a path. -/
theorem bodyText_iff_pathText (hnode : ¬ nodeMarker <:+: body) (hcircle : ¬ circleMarker <:+: body) :
    BodyText Anything style body st ↔ PathText style body st := by
  refine ⟨fun h => ?_, .path⟩
  cases h with
  | label hfirst => exact absurd hfirst.occurs hnode
  | circle hfirst => exact absurd hfirst.occurs hcircle
  | path hpath => exact hpath

/-- A statement is read exactly if its body is in the grammar, where a label and a circle may have
anything between their parts. -/
theorem Statement.read_eq_ok_iff {t : List Char} :
    Statement.read t = .ok st ↔ ∃ style body, takeModifiers (takeCommand t).2 = .ok (style, body) ∧
      BodyText Anything { style with filled := (takeCommand t).1 } body st := by
  unfold Statement.read
  dsimp only
  cases takeModifiers (takeCommand t).2 with
  | error e =>
    refine iff_of_false nofun ?_
    rintro ⟨style, body, htake, -⟩
    cases htake
  | ok taken =>
    obtain ⟨style, body⟩ := taken
    have hbody : (∃ style' body', (Except.ok (style, body) : Except ReadError _) = .ok (style', body') ∧
        BodyText Anything { style' with filled := (takeCommand t).1 } body' st) ↔
        BodyText Anything { style with filled := (takeCommand t).1 } body st := by
      constructor
      · rintro ⟨style', body', htake, h⟩
        obtain ⟨rfl, rfl⟩ := Prod.mk.inj (Except.ok.inj htake)
        exact h
      · exact fun h => ⟨style, body, rfl, h⟩
    rw [hbody]
    dsimp only
    by_cases hnode : nodeMarker <:+: body
    · rw [if_pos (occursIn_iff.2 hnode)]
      exact readLabel_eq_ok_iff { style with filled := (takeCommand t).1 } hnode
    · rw [if_neg (occursIn_iff.not.2 hnode)]
      by_cases hcircle : circleMarker <:+: body
      · rw [if_pos (occursIn_iff.2 hcircle)]
        exact readCircle_eq_ok_iff hnode hcircle
      · rw [if_neg (occursIn_iff.not.2 hcircle), bodyText_iff_pathText hnode hcircle]
        by_cases harc : arcMarker <:+: body
        · rw [if_pos (occursIn_iff.2 harc)]
          refine iff_of_false nofun fun h => ?_
          exact h.not_mem (c := 'r') (by decide) (by decide) (by decide) (harc.mem (by decide))
        · rw [if_neg (occursIn_iff.not.2 harc)]
          exact readPath_eq_ok_iff

/-! ### The points of a path -/

/-- A text of a vector has one opening parenthesis, and its vector starts there. -/
theorem VectorText.exists_inner (h : VectorText p t) :
    ∃ inner b, VectorLiteral p ('(' :: inner ++ [')']) ∧ ')' ∉ inner ∧
      ∀ x y, t = x ++ '(' :: y → y = inner ++ ')' :: b := by
  obtain ⟨v, hv, a, b, rfl, ha, hb⟩ := h
  obtain ⟨inner, rfl, hinner⟩ := hv.exists_inner
  refine ⟨inner, b, hv, hinner.not_mem (by decide) (by decide), fun x y hxy => ?_⟩
  have htext : a ++ '(' :: (inner ++ ')' :: b) = x ++ '(' :: y := by
    rw [← hxy]
    simp only [List.append_assoc, List.cons_append, List.nil_append]
  have hafter : '(' ∉ inner ++ ')' :: b := by
    intro hc
    rcases List.mem_append.1 hc with hc | hc
    · exact hinner.not_mem (by decide) (by decide) hc
    · exact hb.not_mem (by decide) (List.mem_of_ne_of_mem (by decide) hc)
  exact ((List.append_cons_inj_of_notMem (ha.not_mem (by decide)) hafter).1 htext).2.2.symm

/-- The only vector in a text of a vector is that one. -/
theorem VectorText.eq_of_infix {q : Point Float} (h : VectorText q t) (hv : VectorLiteral p v)
    (hwritten : v <:+: t) : p = q := by
  obtain ⟨inner, b, hq, hinner, hsplit⟩ := h.exists_inner
  obtain ⟨inner', rfl, hinner'⟩ := hv.exists_inner
  obtain ⟨x, y, rfl⟩ := hwritten
  have hrest := hsplit x (inner' ++ ')' :: y) (by
    simp only [List.append_assoc, List.cons_append, List.nil_append])
  obtain ⟨rfl, -⟩ := append_cons_inj_of_first (hinner'.not_mem (by decide) (by decide)) hinner hrest
  exact Except.ok.inj ((readVector_literal hv).symm.trans (readVector_literal hq))

/-- Each opening parenthesis of a text has a closing one after it. -/
def Shut (s : List Char) : Prop := ∀ x y, s = x ++ '(' :: y → ')' ∈ y

theorem VectorText.shut (h : VectorText p t) : Shut t := by
  obtain ⟨inner, b, -, -, hsplit⟩ := h.exists_inner
  intro x y hxy
  rw [hsplit x y hxy]
  exact List.mem_append_right _ List.mem_cons_self

theorem PathItem.shut {start : Point Float} (h : PathItem start t p) : Shut t := by
  rcases h with hvector | ⟨-, hcycle⟩
  · exact hvector.shut
  · rintro x y rfl
    exact absurd (List.mem_append_right x List.mem_cons_self)
      (hcycle.not_mem (by decide) (by decide))

/-- A text in parentheses stands on one side of two hyphens. -/
theorem infix_of_infix_hyphens {inner s t : List Char} (hs : Shut s) (hinner : ')' ∉ inner)
    (h : '(' :: inner ++ [')'] <:+: s ++ '-' :: '-' :: t) :
    '(' :: inner ++ [')'] <:+: s ∨ '(' :: inner ++ [')'] <:+: t := by
  obtain ⟨x, y, hxy⟩ := h
  have htext : x ++ '(' :: (inner ++ ')' :: y) = s ++ '-' :: '-' :: t := by
    simpa only [List.append_assoc, List.cons_append, List.nil_append] using hxy
  rcases List.append_eq_append_iff.1 htext with ⟨z, rfl, hz⟩ | ⟨z, rfl, hz⟩
  -- The parenthesis opens before the hyphens, so it closes there.
  · left
    cases z with
    | nil => exact absurd (List.cons.inj hz).1 (by decide)
    | cons c z =>
      rw [List.cons_append, List.cons.injEq] at hz
      obtain ⟨rfl, hz⟩ := hz
      obtain ⟨u, w, rfl, hu⟩ := List.eq_append_cons_of_mem (hs x z rfl)
      rw [List.append_assoc, List.cons_append] at hz
      obtain ⟨rfl, -⟩ := append_cons_inj_of_first hinner hu hz
      refine ⟨x, w, ?_⟩
      simp only [List.append_assoc, List.cons_append, List.nil_append]
  -- It opens behind them, and what is left of the text before it does so too.
  · right
    rcases z with _ | ⟨c, _ | ⟨d, z⟩⟩
    · exact absurd (List.cons.inj hz).1 (by decide)
    · exact absurd (List.cons.inj (List.cons.inj hz).2).1 (by decide)
    · simp only [List.cons_append, List.cons.injEq] at hz
      refine ⟨z, y, ?_⟩
      rw [hz.2.2]
      simp only [List.append_assoc, List.cons_append, List.nil_append]

/-- A text in parentheses does not go over the end of a piece. -/
theorem exists_infix_of_joinWith {ss : List (List Char)} (hss : ∀ s ∈ ss, Shut s)
    {inner : List Char} (hinner : ')' ∉ inner)
    (h : '(' :: inner ++ [')'] <:+: joinWith ['-', '-'] ss) :
    ∃ s ∈ ss, '(' :: inner ++ [')'] <:+: s := by
  induction ss with
  | nil => exact absurd (List.infix_nil.1 h) (List.cons_ne_nil _ _)
  | cons s ss ih =>
    obtain ⟨hs, hrest⟩ := List.forall_mem_cons.1 hss
    by_cases hnil : ss = []
    · subst hnil
      exact ⟨s, List.mem_cons_self, h⟩
    · rw [joinWith_cons hnil, List.append_assoc] at h
      rcases infix_of_infix_hyphens hs hinner h with hfirst | hlater
      · exact ⟨s, List.mem_cons_self, hfirst⟩
      · obtain ⟨t, ht, hpart⟩ := ih hrest hlater
        exact ⟨t, List.mem_cons_of_mem _ ht, hpart⟩

/-- Each vector that is written in a path is the vector of a vertex. -/
theorem PathText.mem_points (h : PathText style body st) (hv : VectorLiteral p v)
    (hwritten : v <:+: body) : p ∈ st.figure.points := by
  obtain ⟨head, items, start, points, -, rfl, hhead, hitems, hpoints⟩ := h.exists_pieces
  rw [hpoints]
  have hshut : ∀ s ∈ head :: items, Shut s := by
    refine List.forall_mem_cons.2 ⟨hhead.shut, fun s hs => ?_⟩
    obtain ⟨q, -, hq⟩ := exists_of_forall₂ hitems hs
    exact hq.shut
  obtain ⟨inner, rfl, hinner⟩ := hv.exists_inner
  obtain ⟨s, hs, hpart⟩ := exists_infix_of_joinWith hshut
    (hinner.not_mem (by decide) (by decide)) hwritten
  rcases List.mem_cons.1 hs with rfl | hs
  · rw [hhead.eq_of_infix hv hpart]
    exact List.mem_cons_self
  · obtain ⟨q, hq, hvector | ⟨-, hcycle⟩⟩ := exists_of_forall₂ hitems hs
    · rw [hvector.eq_of_infix hv hpart]
      exact List.mem_cons_of_mem _ hq
    · exact absurd (hpart.mem List.mem_cons_self) (hcycle.not_mem (by decide) (by decide))

/-! ### Statements -/

/-- A statement is read exactly if its body is in the grammar, where a label and a circle may have
anything between their parts. In a path nothing is skipped: each vector that is written in it gives a
point of the shape, wherever it is placed. -/
theorem Statement.read_grammar (t : List Char) (st : Statement) :
    (Statement.read t = .ok st ↔ ∃ style body,
      takeModifiers (takeCommand t).2 = .ok (style, body) ∧
      BodyText Anything { style with filled := (takeCommand t).1 } body st) ∧
    (Statement.read t = .ok st → ∀ style body,
      takeModifiers (takeCommand t).2 = .ok (style, body) → ¬ nodeMarker <:+: body →
      ¬ circleMarker <:+: body → ∀ p v, VectorLiteral p v → v <:+: body →
      ∀ placement, placement.apply p ∈ (st.place placement).geometry.writtenPoints) := by
  refine ⟨Statement.read_eq_ok_iff, ?_⟩
  intro h style body htake hnode hcircle p v hv hwritten placement
  obtain ⟨style', body', htake', hbody⟩ := Statement.read_eq_ok_iff.1 h
  rw [htake] at htake'
  obtain ⟨rfl, rfl⟩ := Prod.mk.inj (Except.ok.inj htake')
  have hpath := (bodyText_iff_pathText hnode hcircle).1 hbody
  have hpoints : (st.place placement).geometry.writtenPoints =
      st.figure.points.map placement.apply := writtenPoints_place placement st.figure
  rw [hpoints]
  exact List.mem_map_of_mem (hpath.mem_points hv hwritten)

/-- A closed path with a modifier. -/
theorem Statement.read_grammar_triangle :
    let t := "\\filldraw[red] (0,0)--(1,0) -- ( 1,1)--CYCLE".toList
    let body := "(0,0)--(1,0) -- ( 1,1)--CYCLE".toList
    let v := "(1,0)".toList
    ∃ st style, Statement.read t = .ok st ∧ takeModifiers (takeCommand t).2 = .ok (style, body) ∧
      ¬ nodeMarker <:+: body ∧ ¬ circleMarker <:+: body ∧ VectorLiteral ⟨1, 0⟩ v ∧ v <:+: body ∧
      Placement.identity.apply ⟨1, 0⟩ ∈ (st.place .identity).geometry.writtenPoints := by
  intro t body v
  have hread : (Statement.read t).map (fun _ => ()) = .ok () := by decide +kernel
  have htake : (takeModifiers (takeCommand t).2).map Prod.snd = .ok body := by decide +kernel
  obtain ⟨st, hst, -⟩ := exists_of_map_eq_ok hread
  obtain ⟨⟨style, rest⟩, hstyle, rfl⟩ := exists_of_map_eq_ok htake
  have hnode : ¬ nodeMarker <:+: body := by decide
  have hcircle : ¬ circleMarker <:+: body := by decide
  have hv : VectorLiteral ⟨1, 0⟩ v :=
    vectorLiteral_of_literals (x := ['1']) (y := ['0']) (by decide +kernel) (by decide +kernel)
  have hwritten : v <:+: body := by decide
  exact ⟨st, style, hst, hstyle, hnode, hcircle, hv, hwritten, (Statement.read_grammar t st).2 hst style
    body hstyle hnode hcircle _ v hv hwritten .identity⟩

/-- A statement that is read although its body is not in the grammar with blanks only between its parts. No
point of the shape comes from one of the vectors that are written in it. -/
def Skips (t : List Char) : Prop :=
  ∃ st style body p v, Statement.read t = .ok st ∧
    takeModifiers (takeCommand t).2 = .ok (style, body) ∧
    (∀ style' st', ¬ BodyText AllBlank style' body st') ∧ VectorLiteral p v ∧ v <:+: body ∧
    Placement.identity.apply p ∉ (st.place .identity).geometry.writtenPoints

/-- Whether the first coordinate of a point is that of none of the points of a shape. -/
def misses (p : Point Float) (st : Statement) : Bool :=
  (st.place .identity).geometry.writtenPoints.all fun q =>
    decide ((Placement.identity.apply p).x ≠ q.x)

theorem skips_of_misses {t : List Char} (body v : List Char)
    (hread : (Statement.read t).map (misses p) = .ok true)
    (htake : (takeModifiers (takeCommand t).2).map Prod.snd = .ok body)
    (hbody : ∀ style st, ¬ BodyText AllBlank style body st) (hv : VectorLiteral p v)
    (hwritten : v <:+: body) : Skips t := by
  obtain ⟨st, hst, hmisses⟩ := exists_of_map_eq_ok hread
  obtain ⟨⟨style, rest⟩, hstyle, rfl⟩ := exists_of_map_eq_ok htake
  refine ⟨st, style, rest, p, v, hst, hstyle, hbody, hv, hwritten, fun hmem => ?_⟩
  exact of_decide_eq_true (List.all_eq_true.1 hmisses _ hmem) rfl

/-- The line before the center of a circle is read over. -/
theorem skips_before_circle : Skips "\\draw (0,0) -- (5,5) circle(1 cm)".toList := by
  have hv : VectorLiteral ⟨5, 5⟩ "(5,5)".toList :=
    vectorLiteral_of_literals (x := ['5']) (y := ['5']) (by decide +kernel) (by decide +kernel)
  refine skips_of_misses "(0,0) -- (5,5) circle(1 cm)".toList "(5,5)".toList (by decide +kernel)
    (by decide +kernel) (fun style st h => ?_) hv (by decide)
  cases h with
  | label hnode => exact absurd hnode.occurs (by decide)
  | path hpath =>
    exact hpath.not_mem (c := 'r') (by decide) (by decide) (by decide) (by decide)
  -- Two vectors stand before the marker.
  | @circle before v between _ _ _ hcircle hcenter _ _ _ hskipped =>
    have hcut := cutAt_eq_some_iff.2 hcircle
    have hleft : before ++ v ++ between = "(0,0) -- (5,5) ".toList :=
      congrArg Prod.fst (Option.some.inj (hcut.symm.trans rfl))
    have hcount := congrArg (List.count '(') hleft
    have hblank : ∀ s ∈ [before, between], s.count '(' = 0 := fun s hs =>
      List.count_eq_zero_of_not_mem ((hskipped s hs).not_mem (by decide))
    rw [List.count_append, List.count_append, hcenter.count_open, hblank before (by simp),
      hblank between (by simp)] at hcount
    exact absurd hcount (by decide)

/-- The vector behind a label is read over. -/
theorem skips_behind_label : Skips "\\draw node at (0,0) \x7ba\x7d -- (1,1)".toList := by
  have hv : VectorLiteral ⟨1, 1⟩ "(1,1)".toList :=
    vectorLiteral_of_literals (x := ['1']) (y := ['1']) (by decide +kernel) (by decide +kernel)
  refine skips_of_misses "node at (0,0) \x7ba\x7d -- (1,1)".toList "(1,1)".toList
    (by decide +kernel) (by decide +kernel) (fun style st h => ?_) hv (by decide)
  cases h with
  | circle hcircle => exact absurd hcircle.occurs (by decide)
  | path hpath =>
    exact hpath.not_mem (c := 'o') (by decide) (by decide) (by decide) (by decide)
  -- The body does not end with a brace and blanks.
  | @label before gap v between text after _ hnode _ _ _ _ hskipped =>
    have hlast := congrArg List.getLast? hnode.eq
    rw [← List.append_assoc (gap ++ v), ← List.append_assoc, List.getLast?_append_cons] at hlast
    have hblank := hskipped after (by simp)
    rcases List.eq_nil_or_concat after with rfl | ⟨rest, c, rfl⟩
    · exact absurd hlast (by decide)
    · rw [List.concat_eq_append] at hlast hblank
      rw [← List.cons_append, List.getLast?_concat] at hlast
      obtain rfl : ')' = c := Option.some.inj hlast
      exact absurd (hblank ')' (by simp)) (by decide)

/-- What stands around the parts of a circle and of a label is read over, vectors as well. -/
theorem skips_vectors :
    Skips "\\draw (0,0) -- (5,5) circle(1 cm)".toList ∧
      Skips "\\draw node at (0,0) \x7ba\x7d -- (1,1)".toList :=
  ⟨skips_before_circle, skips_behind_label⟩

end Picture

end Draftboard
