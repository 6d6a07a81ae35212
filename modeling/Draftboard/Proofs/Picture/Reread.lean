import Mathlib.Data.List.Forall2
import Draftboard.Proofs.Picture.RoundTrip

/-!
# Draftboard.Proofs.Picture.Reread

What has been read can be written and read again.

* The text of a label is cut out of a statement between the braces that enclose it
  (`braces_of_readLabel`), and a statement is a part of the visible text
  (`isInfix_of_mem_statementTexts`). So the label keeps its lines and its closing brace wherever it
  is written, unless it breaks a line after a carriage return (`recoverableLabel_of_visible`).
* A shape that has been read is `Regular`: its style has nothing that its kind does not write.
* `Shape.Resembles` relates a shape and its normal form: everything but coordinates, radius and
  tint.
* `read_write_of_read` puts these together, for every text without a carriage return.
-/

namespace Draftboard

open Text Picture

namespace Picture

/-! ### Parts of a statement -/

theorem takeCommand_suffix (t : List Char) : (takeCommand t).2 <:+ t := by
  have hdefault : ∀ found : Option (Bool × List Char), (∀ r, found = some r → r.2 <:+ t) →
      (found.getD (false, t)).2 <:+ t := by
    rintro (_ | r) h
    · exact List.suffix_refl t
    · exact h r rfl
  refine hdefault _ fun r hr => ?_
  obtain ⟨⟨command, fills⟩, -, hfound⟩ := List.exists_of_findSome?_eq_some hr
  obtain ⟨rest, hrest, rfl⟩ := Option.map_eq_some_iff.1 hfound
  unfold dropPrefix? at hrest
  split at hrest
  · obtain rfl := Option.some.inj hrest
    exact (trimStart_suffix _).trans (List.drop_suffix _ _)
  · cases hrest

theorem suffix_of_takeModifiers {text body : List Char} {s : Style}
    (h : takeModifiers text = .ok (s, body)) : body <:+ text := by
  unfold takeModifiers at h
  split at h
  · rename_i inner
    split at h
    · cases h
    · rename_i block rest hcut
      split at h
      · obtain ⟨-, rfl⟩ := Prod.mk.inj (Except.ok.inj h)
        exact ((trimStart_suffix rest).trans (suffix_of_cutAt hcut)).trans (List.suffix_cons _ _)
      · cases h
  · obtain ⟨-, rfl⟩ := Prod.mk.inj (Except.ok.inj h)
    exact List.suffix_refl _

theorem suffix_of_takeVector {text rest : List Char} {p : Point Float}
    (h : takeVector text = .ok (p, rest)) : rest <:+ text := by
  unfold takeVector at h
  split at h
  · cases h
  · rename_i afterOpen hopen
    split at h
    · cases h
    · rename_i inner after hclose
      split at h
      · obtain ⟨-, rfl⟩ := Prod.mk.inj (Except.ok.inj h)
        exact (suffix_of_cutAt hclose).trans (suffix_of_cutAt hopen)
      · cases h

/-- What is taken out of braces stands between them, and is taken out of them again. -/
theorem braces_of_braced? {text inner : List Char} (h : braced? text = some inner) :
    '{' :: inner ++ ['}'] <:+: text ∧
      upToClosing? { depth := 1 } (inner ++ ['}']) = some inner := by
  obtain ⟨⟨before, after⟩, hcut, hinner⟩ := Option.bind_eq_some_iff.1 h
  obtain ⟨rest, hafter, hclosed⟩ := upToClosing?_cut hinner
  refine ⟨⟨before, rest, ?_⟩, hclosed⟩
  rw [append_of_cutAt hcut]
  rw [hafter]
  simp only [List.append_assoc, List.cons_append, List.nil_append]

/-- The body of a label holds its text between braces, and of the style the colour is kept. -/
theorem braces_of_readLabel {body : List Char} {c : Color} {st : Statement}
    (h : readLabel body c = .ok st) :
    ∃ anchor text, st = ⟨.label anchor text, { color := c }⟩ ∧ '{' :: text ++ ['}'] <:+: body ∧
      upToClosing? { depth := 1 } (text ++ ['}']) = some text := by
  unfold readLabel at h
  dsimp only at h
  split at h
  · cases h
  · rename_i anchor rest hvector
    -- The node marker, where there is one, is cut off with what comes before it.
    have hsuffix : rest <:+ body := by
      split at hvector
      · rename_i hcut
        exact (suffix_of_takeVector hvector).trans (suffix_of_cutAt hcut)
      · exact suffix_of_takeVector hvector
    split at h
    · rename_i text hbraced
      obtain rfl := Except.ok.inj h
      obtain ⟨hpart, hclosed⟩ := braces_of_braced? hbraced
      exact ⟨anchor, text, rfl, hpart.trans hsuffix.isInfix, hclosed⟩
    · cases h

theorem of_readCircle {body : List Char} {s : Style} {st : Statement}
    (h : readCircle body s = .ok st) :
    ∃ center radius, st = ⟨.circle center radius,
      { s with frontArrow := false, backArrow := false, thickness := default }⟩ := by
  unfold readCircle at h
  split at h
  · cases h
  · split at h
    · cases h
    · rename_i center _ _
      split at h
      · cases h
      · rename_i radius _
        obtain rfl := Except.ok.inj h
        exact ⟨center, radius, rfl⟩

theorem length_of_readVertices {first : Option (Point Float)} {pieces : List (List Char)}
    {ps : List (Point Float)} (h : readVertices first pieces = .ok ps) : ps.length = pieces.length := by
  induction pieces generalizing first ps with
  | nil =>
    obtain rfl := Except.ok.inj h
    rfl
  | cons piece pieces ih =>
    rw [readVertices.eq_def] at h
    dsimp only at h
    split at h
    · cases h
    · split at h
      · cases h
      · rename_i hrest
        obtain rfl := Except.ok.inj h
        rw [List.length_cons, ih hrest, List.length_cons]

/-- A path is a line, which is not filled, or has three vertices. -/
theorem of_readPath {statement body : List Char} {s : Style} {st : Statement}
    (h : readPath statement body s = .ok st) :
    (∃ start stop, st = ⟨.line start stop, { s with filled := false }⟩) ∨
      ∃ vertices, 3 ≤ vertices.length ∧ st = ⟨.path vertices, s⟩ := by
  unfold readPath at h
  dsimp only at h
  split at h
  · cases h
  · rename_i hlength
    split at h
    · cases h
    · rename_i start stop _
      obtain rfl := Except.ok.inj h
      exact .inl ⟨start, stop, rfl⟩
    · rename_i vertices hline hvertices
      obtain rfl := Except.ok.inj h
      refine .inr ⟨vertices, ?_, rfl⟩
      have hread := length_of_readVertices hvertices
      have htwo : vertices.length ≠ 2 := by
        intro h2
        obtain ⟨a, b, rfl⟩ := List.length_eq_two.1 h2
        exact hline a b rfl
      omega

/-- A statement is read by one of three readers, from an end of its text and with the style of its
modifiers. -/
theorem cases_of_read {t : List Char} {st : Statement} (h : Statement.read t = .ok st) :
    ∃ (body : List Char) (style : Style) (fills : Bool), body <:+ t ∧
      takeModifiers (takeCommand t).2 = .ok (style, body) ∧
      (readLabel body style.color = .ok st ∨
        readCircle body { style with filled := fills } = .ok st ∨
        readPath t body { style with filled := fills } = .ok st) := by
  have hcommand := takeCommand_suffix t
  unfold Statement.read at h
  dsimp only at h
  split at h
  · cases h
  · rename_i style body hmodifiers
    refine ⟨body, style, (takeCommand t).1, (suffix_of_takeModifiers hmodifiers).trans hcommand,
      hmodifiers, ?_⟩
    split at h
    · exact .inl h
    · split at h
      · exact .inr (.inl h)
      · split at h
        · cases h
        · exact .inr (.inr h)

/-! ### Statements of a text -/

/-- A piece is a part of the text, and the first one is its start. -/
theorem prefix_of_statements {s : BraceScan} {text first : List Char} {rest : List (List Char)}
    (h : statements s text = first :: rest) : first <+: text ∧ ∀ t ∈ rest, t <:+: text := by
  induction text generalizing s first rest with
  | nil =>
    obtain ⟨rfl, rfl⟩ := List.cons.inj h
    exact ⟨List.prefix_refl _, by simp⟩
  | cons c r ih =>
    rw [statements] at h
    cases hr : statements (s.step c) r with
    | nil => exact absurd hr (statements_ne_nil _ _)
    | cons v vs =>
      obtain ⟨hv, hvs⟩ := ih hr
      have hlift : ∀ t, t <:+: r → t <:+: c :: r := fun t ht =>
        ht.trans (List.suffix_cons c r).isInfix
      rw [hr] at h
      split at h
      -- A semicolon ends the piece before it.
      · obtain ⟨rfl, rfl⟩ := List.cons.inj h
        refine ⟨List.nil_prefix, fun t ht => hlift t ?_⟩
        rcases List.mem_cons.1 ht with rfl | ht
        · exact hv.isInfix
        · exact hvs t ht
      · obtain ⟨rfl, rfl⟩ := List.cons.inj h
        exact ⟨List.cons_prefix_cons.2 ⟨rfl, hv⟩, fun t ht => hlift t (hvs t ht)⟩

/-- A statement is a part of the visible text. -/
theorem isInfix_of_mem_statementTexts {text t : List Char} (h : t ∈ statementTexts text) :
    t <:+: visible text := by
  obtain ⟨hmem, -⟩ := List.mem_filter.1 h
  obtain ⟨piece, hpiece, rfl⟩ := List.mem_map.1 hmem
  refine (trim_isInfix piece).trans ?_
  cases hs : statements {} (visible text) with
  | nil => exact absurd hs (statements_ne_nil _ _)
  | cons first rest =>
    obtain ⟨hfirst, hrest⟩ := prefix_of_statements hs
    rw [hs] at hpiece
    rcases List.mem_cons.1 hpiece with rfl | hpiece
    · exact hfirst.isInfix
    · exact hrest piece hpiece

/-- Only where a label breaks its line after a carriage return does a line of it lose something. -/
theorem isInfix_of_getLast? {label line : List Char}
    (hl : line ∈ splitWhere (· == '\n') ('{' :: label ++ ['}'])) (hlast : line.getLast? = some '\r') :
    ['\r', '\n'] <:+: label := by
  have hmem : line <:+ joinWith ['\n'] _ ∨ line ++ ['\n'] <:+: joinWith ['\n'] _ :=
    isInfix_joinWith_of_mem hl
  rw [joinWith_splitWhere] at hmem
  obtain ⟨start, rfl⟩ := List.getLast?_eq_some_iff.1 hlast
  rcases hmem with hend | hbreak
  -- The last line ends with the closing brace.
  · obtain ⟨u, hu⟩ := (List.suffix_append start ['\r']).trans hend
    have hends := congrArg List.getLast? hu
    rw [List.getLast?_concat, List.getLast?_concat] at hends
    cases hends
  · have hpair : ['\r', '\n'] <:+: '{' :: (label ++ ['}']) := by
      refine List.IsInfix.trans ⟨start, [], ?_⟩ hbreak
      simp
    rcases List.infix_cons_iff.1 hpair with hprefix | hpair
    · exact absurd (List.cons_prefix_cons.1 hprefix).1 (by decide)
    · rcases List.infix_concat_iff.1 hpair with ⟨u, hu⟩ | hpair
      · have hends := congrArg List.getLast? hu
        rw [List.getLast?_append_cons, List.getLast?_concat] at hends
        cases hends
      · exact hpair

/-- What stands between braces that close in a visible text can be written anywhere. -/
theorem recoverableLabel_of_visible {text label : List Char} (hbreak : ¬ ['\r', '\n'] <:+: label)
    (hpart : '{' :: label ++ ['}'] <:+: visible text)
    (hclosed : upToClosing? { depth := 1 } (label ++ ['}']) = some label) :
    RecoverableLabel label := by
  refine ⟨fun line hl => ⟨?_, fun hlast => hbreak (isInfix_of_getLast? hl hlast)⟩, hclosed⟩
  -- The label starts at a brace, so its lines keep what the lines of the visible text have.
  obtain ⟨x, y, htext⟩ := hpart
  have hvisible := legible_visible text
  rw [← htext, List.append_assoc] at hvisible
  exact legible_part (m := label ++ ['}']) hvisible line hl

/-- What has succeeded with a function applied to its result has succeeded. -/
theorem exists_of_map_eq_ok {ε α β : Type} {result : Except ε α} {f : α → β} {b : β}
    (h : result.map f = .ok b) : ∃ a, result = .ok a ∧ f a = b := by
  cases result with
  | error e => cases h
  | ok a => exact ⟨a, rfl, Except.ok.inj h⟩

/-- What is paired off with an item of the first list. -/
theorem exists_of_forall₂ {α β : Type} {R : α → β → Prop} {xs : List α} {ys : List β}
    (h : List.Forall₂ R xs ys) {x : α} (hx : x ∈ xs) : ∃ y ∈ ys, R x y := by
  induction h with
  | nil => exact absurd hx List.not_mem_nil
  | cons hxy _ ih =>
    rcases List.mem_cons.1 hx with rfl | hx
    · exact ⟨_, List.mem_cons_self, hxy⟩
    · obtain ⟨y, hy, hxy⟩ := ih hx
      exact ⟨y, List.mem_cons_of_mem _ hy, hxy⟩

theorem forall₂_of_readEach {β : Type} {reader : List Char → Except ReadError β}
    {ts : List (List Char)} {bs : List β} (h : readEach reader ts = .ok bs) :
    List.Forall₂ (fun t b => reader t = .ok b) ts bs := by
  induction ts generalizing bs with
  | nil =>
    obtain rfl := Except.ok.inj h
    exact .nil
  | cons t ts ih =>
    rw [readEach] at h
    split at h
    · cases h
    · rename_i hread
      split at h
      · cases h
      · rename_i hrest
        obtain rfl := Except.ok.inj h
        exact .cons hread (ih hrest)

theorem readEach_forall {β : Type} {reader : List Char → Except ReadError β} {ts : List (List Char)}
    {bs : List β} (h : readEach reader ts = .ok bs) : ∀ b ∈ bs, ∃ t ∈ ts, reader t = .ok b :=
  fun _ hb => exists_of_forall₂ (forall₂_of_readEach h).flip hb

/-- The shapes that are read are the statements of the text, each of them placed. -/
theorem exists_statements_of_read {placement : Placement} {text : List Char}
    {shapes : List (Shape Float)} (h : read placement text = .ok shapes) :
    ∃ all, List.Forall₂ (fun t st => Statement.read t = .ok st) (statementTexts text) all ∧
      shapes = all.map (Statement.place placement) := by
  rw [read_eq] at h
  obtain ⟨all, hall, rfl⟩ := exists_of_map_eq_ok h
  exact ⟨all, forall₂_of_readEach hall, rfl⟩

/-- A shape that is read comes from one statement of the text. -/
theorem exists_statement_of_read {placement : Placement} {text : List Char}
    {shapes : List (Shape Float)} (h : read placement text = .ok shapes) :
    ∀ s ∈ shapes, ∃ t ∈ statementTexts text, ∃ st, Statement.read t = .ok st ∧
      s = st.place placement := by
  obtain ⟨all, hall, rfl⟩ := exists_statements_of_read h
  intro s hs
  obtain ⟨st, hst, rfl⟩ := List.mem_map.1 hs
  obtain ⟨t, ht, hread⟩ := exists_of_forall₂ hall.flip hst
  exact ⟨t, ht, st, hread, rfl⟩

end Picture

/-! ### Shapes that have been read -/

/-- A shape as reading makes it: no curve, three vertices of a polyline, and a style without
anything that its kind does not write. -/
def Shape.Regular (s : Shape Float) : Prop :=
  match s.geometry with
  | .line .. => s.style.filled = false
  | .circle .. => s.style.frontArrow = false ∧ s.style.backArrow = false ∧ s.style.thickness = .thin
  | .polyline vertices => 3 ≤ vertices.length
  | .curve .. => False
  | .label .. => s.style = { color := s.style.color }

theorem Statement.regular_place {t : List Char} {st : Statement} (h : Statement.read t = .ok st)
    (placement : Placement) : (st.place placement).Regular := by
  obtain ⟨body, style, fills, -, -, hlabel | hcircle | hpath⟩ := cases_of_read h
  · obtain ⟨anchor, text, rfl, -, -⟩ := braces_of_readLabel hlabel
    exact rfl
  · obtain ⟨center, radius, rfl⟩ := of_readCircle hcircle
    exact ⟨rfl, rfl, rfl⟩
  · rcases of_readPath hpath with ⟨start, stop, rfl⟩ | ⟨vertices, hlength, rfl⟩
    · exact rfl
    · show 3 ≤ (vertices.map placement.apply).length
      rwa [List.length_map]

/-- The text of a label. -/
def Geometry.text? : Geometry Float → Option String
  | .label _ text => some text
  | _ => none

/-- The label of a statement of a text stands between braces in the visible text, which close at
its end. -/
theorem Statement.braces_of_label {text t : List Char} {st : Statement} (ht : t ∈ statementTexts text)
    (h : Statement.read t = .ok st) {placement : Placement} {label : String}
    (hlabel : (st.place placement).geometry.text? = some label) :
    '{' :: label.toList ++ ['}'] <:+: visible text ∧
      upToClosing? { depth := 1 } (label.toList ++ ['}']) = some label.toList := by
  obtain ⟨body, style, fills, hbody, -, hread | hcircle | hpath⟩ := cases_of_read h
  · obtain ⟨anchor, inner, rfl, hpart, hclosed⟩ := braces_of_readLabel hread
    obtain rfl := Option.some.inj hlabel
    rw [String.toList_ofList]
    exact ⟨(hpart.trans hbody.isInfix).trans (isInfix_of_mem_statementTexts ht), hclosed⟩
  · obtain ⟨center, radius, rfl⟩ := of_readCircle hcircle
    cases hlabel
  · rcases of_readPath hpath with ⟨start, stop, rfl⟩ | ⟨vertices, -, rfl⟩ <;> cases hlabel

/-- A statement of a text can be written, if its radius is finite and no line of its label ends with
a carriage return. -/
theorem Statement.recoverable_place {text t : List Char} {st : Statement}
    (ht : t ∈ statementTexts text) (h : Statement.read t = .ok st) {placement : Placement}
    (hradius : ∀ r, (st.place placement).geometry.radius? = some r → r.isFinite = true)
    (hbreak : ∀ label, (st.place placement).geometry.text? = some label →
      ¬ ['\r', '\n'] <:+: label.toList) :
    (st.place placement).geometry.Recoverable := by
  have hregular := Statement.regular_place h placement
  unfold Shape.Regular at hregular
  cases hg : (st.place placement).geometry with
  | line | curve => trivial
  | circle center rim => exact hradius _ (by rw [hg]; rfl)
  | polyline vertices => rwa [hg] at hregular
  | label anchor label =>
    have hlabel : (st.place placement).geometry.text? = some label := by rw [hg]; rfl
    obtain ⟨hpart, hclosed⟩ := Statement.braces_of_label ht h hlabel
    exact recoverableLabel_of_visible (hbreak label hlabel) hpart hclosed

/-! ### Resemblance -/

/-- Two shapes that agree in everything but coordinates, radius and tint; black at half tint may
have become gray. -/
structure Shape.Resembles (s t : Shape Float) : Prop where
  kind : t.kind = s.kind
  vertices : t.geometry.vertices.length = s.geometry.vertices.length
  text : t.geometry.text? = s.geometry.text?
  dashed : t.style.dashed = s.style.dashed
  frontArrow : t.style.frontArrow = s.style.frontArrow
  backArrow : t.style.backArrow = s.style.backArrow
  filled : t.style.filled = s.style.filled
  thickness : t.style.thickness = s.style.thickness
  ink : t.style.color.ink = if s.style.color.isHalfBlack then .gray else s.style.color.ink

theorem Color.ink_normal (c : Color) :
    c.normal.ink = if c.isHalfBlack then .gray else c.ink := by
  unfold normal
  split
  · rfl
  · split
    · rename_i hdefault
      rw [isDefault, Bool.and_eq_true, beq_iff_eq] at hdefault
      exact hdefault.1.symm
    · split <;> rfl

/-- A regular shape resembles its normal form. -/
theorem Shape.Regular.resembles_normal {s : Shape Float} (h : s.Regular) :
    s.Resembles s.normal := by
  obtain ⟨geometry, style, fan, raster⟩ := s
  have hink := style.color.ink_normal
  cases geometry with
  | line start stop => exact ⟨rfl, rfl, rfl, rfl, rfl, rfl, Eq.symm h, rfl, hink⟩
  | circle center rim =>
    obtain ⟨hfront, hback, hthickness⟩ := h
    exact ⟨rfl, rfl, rfl, rfl, hfront.symm, hback.symm, rfl, hthickness.symm, hink⟩
  | polyline vertices =>
    exact ⟨rfl, List.length_map _, rfl, rfl, rfl, rfl, rfl, rfl, hink⟩
  | curve start controls stop => cases h
  | label anchor text =>
    have hstyle : style = { color := style.color } := h
    rw [hstyle]
    exact ⟨rfl, rfl, rfl, rfl, rfl, rfl, rfl, rfl, hink⟩

namespace Picture

/-- What is read from a text can be written and read again, and comes back as shapes that resemble
the first ones. -/
theorem read_write_of_read {placement : Placement} {text : List Char} {shapes : List (Shape Float)}
    (hcr : '\r' ∉ text) (h : read placement text = .ok shapes)
    (hradius : ∀ s ∈ shapes, ∀ r, s.geometry.radius? = some r → r.isFinite = true) :
    ∃ again, read Placement.identity (write shapes) = .ok again ∧
      List.Forall₂ Shape.Resembles shapes again := by
  have hstatement := exists_statement_of_read h
  refine ⟨shapes.map Shape.normal, read_write_of_recoverable fun s hs => ?_, ?_⟩
  · obtain ⟨t, ht, st, hread, rfl⟩ := hstatement s hs
    refine Statement.recoverable_place ht hread (hradius _ hs) fun label hlabel hbreak => ?_
    have hmem : '\r' ∈ visible text :=
      (Statement.braces_of_label ht hread hlabel).1.mem (by simp [hbreak.mem List.mem_cons_self])
    rcases mem_of_mem_visible hmem with h | h
    · exact absurd h (by decide)
    · exact hcr h
  · rw [List.forall₂_map_right_iff, List.forall₂_same]
    intro s hs
    obtain ⟨t, -, st, hread, rfl⟩ := hstatement s hs
    exact (Statement.regular_place hread placement).resembles_normal

/-- A picture with comments, a circle, a closed path and a label of several lines. -/
def pictureText : List Char :=
  ["\\begin\x7btikzpicture\x7d % two", " and one\n", "\\filldraw[color = black!50, ", "dashed] ",
    "(1, 2) circle(1 cm);\n", "\\draw[<->, color = red] ", "(0,0) -- (1,1) -- cycle; ",
    "node at (1, 0) \x7ba; $\x7b$", " % cut\n  \\\x7d \x7bb\n", "\x7d\x7d;\n\\end\x7btikzpicture\x7d"].flatMap
      String.toList

theorem read_write_of_read_pictureText : ∃ shapes, '\r' ∉ pictureText ∧
    read ⟨2, 0⟩ pictureText = .ok shapes ∧ shapes.length = 3 ∧
    (∀ s ∈ shapes, ∀ r, s.geometry.radius? = some r → r.isFinite = true) ∧
    ∃ again, read Placement.identity (write shapes) = .ok again ∧
      List.Forall₂ Shape.Resembles shapes again := by
  have hcr : '\r' ∉ pictureText := by decide +kernel
  have hcheck : (match read ⟨2, 0⟩ pictureText with
      | .ok shapes => shapes.length == 3 &&
        shapes.all fun s => s.geometry.radius?.all Float.isFinite
      | .error _ => false) = true := by
    decide +kernel
  cases hread : read ⟨2, 0⟩ pictureText with
  | error e => rw [hread] at hcheck; cases hcheck
  | ok shapes =>
    rw [hread] at hcheck
    simp only [Bool.and_eq_true, beq_iff_eq, List.all_eq_true] at hcheck
    obtain ⟨hlength, hall⟩ := hcheck
    have hradius : ∀ s ∈ shapes, ∀ r, s.geometry.radius? = some r → r.isFinite = true := by
      intro s hs r hr
      have := hall s hs
      rwa [hr] at this
    exact ⟨shapes, hcr, rfl, hlength, hradius, read_write_of_read hcr hread hradius⟩

end Picture

end Draftboard
