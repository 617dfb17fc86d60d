import EntitySync.Rules.Template

/-!
# What template substitution does to a text

A reference is any occurrence of `{bucket_parameters.NAME}` in a text. References cannot overlap,
so the leftmost matches of the regex are all of them. A rendered value is quoted and holds neither
braces nor quotes, so no reference can arise across the seam between a value and its neighbours.
-/

namespace EntitySync.Rules

def IsName (name : List Char) : Prop := name ≠ [] ∧ ∀ c ∈ name, isNameChar c = true

instance (name : List Char) : Decidable (IsName name) :=
  decidable_of_iff (name ≠ [] ∧ name.all isNameChar = true) (by rw [IsName, List.all_eq_true])

/-- `{bucket_parameters.NAME}`. -/
def refText (name : List Char) : List Char := refOpen ++ (name ++ ['\x7d'])

def refTail (name : List Char) : List Char := refOpen.tail ++ (name ++ ['\x7d'])

structure Occurs (text before name after : List Char) : Prop where
  isName : IsName name
  split : text = before ++ (refText name ++ after)

def Piece.text (write : List Char → List Char) : Piece → List Char
  | .lit c => [c]
  | .ref name => write name

def spell (ps : List Piece) : List Char := ps.flatMap (Piece.text refText)

/-- The pieces spell the text, and the references among them are exactly its references. -/
structure CutAtReferences (text : List Char) (ps : List Piece) : Prop where
  spelled : spell ps = text
  exact : ∀ before name after, Occurs text before name after ↔
    ∃ front back, ps = front ++ .ref name :: back ∧ spell front = before ∧ spell back = after

def quoted (value : String) : List Char := '\x27' :: (value.toList ++ ['\x27'])

@[simp] theorem spell_nil : spell [] = [] := rfl

@[simp] theorem spell_lit (c : Char) (ps : List Piece) : spell (.lit c :: ps) = c :: spell ps := rfl

@[simp] theorem spell_ref (name : List Char) (ps : List Piece) :
    spell (.ref name :: ps) = refText name ++ spell ps := rfl

@[simp] theorem spell_append (ps qs : List Piece) : spell (ps ++ qs) = spell ps ++ spell qs := by
  simp [spell]

@[simp] theorem spell_map_lit (cs : List Char) : spell (cs.map .lit) = cs := by
  induction cs with
  | nil => rfl
  | cons c cs ih => simp [ih]

/-! ## The matches of the regex -/

theorem open_notMem_refOpen_tail : '\x7b' ∉ refOpen.tail := by decide

theorem quote_notMem_refOpen_tail : '\x27' ∉ refOpen.tail := by decide

theorem length_refOpen : refOpen.length = refOpen.tail.length + 1 := rfl

theorem refText_eq (name : List Char) : refText name = '\x7b' :: refTail name := rfl

theorem open_notMem_of_isName {name : List Char} (h : IsName name) : '\x7b' ∉ name := by
  intro hmem
  exact absurd (h.2 _ hmem) (by decide)

theorem quote_notMem_of_isName {name : List Char} (h : IsName name) : '\x27' ∉ name := by
  intro hmem
  exact absurd (h.2 _ hmem) (by decide)

theorem matchRef_eq_some {text name : List Char} :
    matchRef text = some name ↔ IsName name ∧ ∃ rest, text = refText name ++ rest := by
  constructor
  · intro h
    rw [matchRef] at h
    split at h
    next hopen =>
      obtain ⟨tail, rfl⟩ := List.isPrefixOf_iff_prefix.mp hopen
      rw [List.drop_left] at h
      simp only [Option.ite_none_right_eq_some, Option.some.injEq] at h
      obtain ⟨⟨hne, hclose⟩, rfl⟩ := h
      obtain ⟨rest, hrest⟩ := List.head?_eq_some_iff.mp hclose
      refine ⟨⟨hne, List.all_eq_true.mp List.all_takeWhile⟩, rest, ?_⟩
      rw [refText, List.append_assoc, List.append_assoc, List.singleton_append, ← hrest,
        List.takeWhile_append_dropWhile]
    next => cases h
  · intro h
    obtain ⟨⟨hne, hname⟩, rest, rfl⟩ := h
    have htail : refText name ++ rest = refOpen ++ (name ++ '\x7d' :: rest) := by
      simp [refText]
    have htake : (name ++ '\x7d' :: rest).takeWhile isNameChar = name := by
      rw [List.takeWhile_append_of_pos hname, List.takeWhile_cons_of_neg (by decide),
        List.append_nil]
    have hdrop : (name ++ '\x7d' :: rest).dropWhile isNameChar = '\x7d' :: rest := by
      rw [List.dropWhile_append_of_pos hname, List.dropWhile_cons_of_neg (by decide)]
    have hopen : refOpen.isPrefixOf (refOpen ++ (name ++ '\x7d' :: rest)) = true :=
      List.isPrefixOf_iff_prefix.mpr (List.prefix_append _ _)
    rw [matchRef, htail, if_pos hopen, List.drop_left]
    simp [htake, hdrop, hne]

theorem pieces_skip (n : Nat) (cs : List Char) : pieces n cs = pieces 0 (cs.drop n) := by
  induction cs generalizing n with
  | nil => simp [pieces]
  | cons c cs ih =>
    cases n with
    | zero => rfl
    | succ n => simpa [pieces] using ih n

theorem pieces_refText {name : List Char} (h : IsName name) (rest : List Char) :
    pieces 0 (refText name ++ rest) = .ref name :: pieces 0 rest := by
  have hmatch : matchRef (refText name ++ rest) = some name := matchRef_eq_some.mpr ⟨h, rest, rfl⟩
  have hlength : (refTail name).length = refOpen.length + name.length := by
    rw [refTail, List.length_append, List.length_append, List.length_singleton, length_refOpen,
      Nat.add_assoc, Nat.add_comm 1]
  rw [refText_eq, List.cons_append] at hmatch ⊢
  rw [pieces, hmatch]
  simp only
  rw [pieces_skip, ← hlength, List.drop_left]

theorem pieces_lit {c : Char} {rest : List Char} (h : matchRef (c :: rest) = none) :
    pieces 0 (c :: rest) = .lit c :: pieces 0 rest := by
  rw [pieces, h]

theorem pieces_plain {cs : List Char} (h : '\x7b' ∉ cs) (rest : List Char) :
    pieces 0 (cs ++ rest) = cs.map .lit ++ pieces 0 rest := by
  induction cs with
  | nil => rfl
  | cons c cs ih =>
    rw [List.mem_cons, not_or] at h
    have hmatch : matchRef (c :: (cs ++ rest)) = none := by
      apply Option.eq_none_iff_forall_ne_some.mpr
      intro name hname
      obtain ⟨_, tail, htail⟩ := matchRef_eq_some.mp hname
      rw [refText_eq, List.cons_append, List.cons.injEq] at htail
      exact h.1 htail.1.symm
    rw [List.cons_append, pieces_lit hmatch, ih h.2]
    rfl

/-- Every text is built up from characters at which no reference starts, and references. -/
theorem referenceInduction {motive : List Char → Prop} (nil : motive [])
    (ref : ∀ name rest, IsName name → motive rest → motive (refText name ++ rest))
    (lit : ∀ c rest, matchRef (c :: rest) = none → motive rest → motive (c :: rest))
    (text : List Char) : motive text := by
  induction hn : text.length using Nat.strong_induction_on generalizing text with
  | _ n ih =>
    cases text with
    | nil => exact nil
    | cons c rest =>
      cases hmatch : matchRef (c :: rest) with
      | none => exact lit c rest hmatch (ih rest.length (by simp [← hn]) rest rfl)
      | some name =>
        obtain ⟨hname, tail, htail⟩ := matchRef_eq_some.mp hmatch
        have hlt : tail.length < n := by
          rw [← hn, htail, refText_eq, List.cons_append, List.length_cons, List.length_append]
          omega
        rw [htail]
        exact ref name tail hname (ih tail.length hlt tail rfl)

theorem spell_pieces (text : List Char) : spell (pieces 0 text) = text := by
  induction text using referenceInduction with
  | nil => rfl
  | ref name rest hname ih => rw [pieces_refText hname, spell_ref, ih]
  | lit c rest hmatch ih => rw [pieces_lit hmatch, spell_lit, ih]

theorem isName_of_mem_pieces {text name : List Char} (h : .ref name ∈ pieces 0 text) :
    IsName name := by
  induction text using referenceInduction with
  | nil => cases h
  | ref other rest hother ih =>
    rw [pieces_refText hother, List.mem_cons] at h
    cases h with
    | inl heq =>
      cases heq
      exact hother
    | inr hrest => exact ih hrest
  | lit c rest hmatch ih =>
    rw [pieces_lit hmatch] at h
    cases h with
    | tail _ hrest => exact ih hrest

/-- Cutting can be resumed behind any piece. -/
theorem pieces_spell_of_append {text : List Char} {front back : List Piece}
    (h : pieces 0 text = front ++ back) : pieces 0 (spell back) = back := by
  have hwhole (text : List Char) (hnil : pieces 0 text = back) : pieces 0 (spell back) = back := by
    rw [← hnil, spell_pieces]
  induction text using referenceInduction generalizing front with
  | nil =>
    cases front with
    | nil => exact hwhole [] h
    | cons p front => cases h
  | ref name rest hname ih =>
    cases front with
    | nil => exact hwhole _ h
    | cons p front =>
      rw [pieces_refText hname, List.cons_append, List.cons.injEq] at h
      exact ih h.2
  | lit c rest hmatch ih =>
    cases front with
    | nil => exact hwhole _ h
    | cons p front =>
      rw [pieces_lit hmatch, List.cons_append, List.cons.injEq] at h
      exact ih h.2

theorem open_notMem_refTail {name : List Char} (h : IsName name) : '\x7b' ∉ refTail name :=
  List.not_mem_append open_notMem_refOpen_tail
    (List.not_mem_append (open_notMem_of_isName h) (by decide))

theorem Occurs.behind {other rest before name after : List Char} (hother : IsName other)
    (h : Occurs (refText other ++ rest) before name after) (hbefore : before ≠ []) :
    ∃ between, before = refText other ++ between ∧ Occurs rest between name after := by
  cases List.append_eq_append_iff.mp h.split with
  | inl hleft =>
    obtain ⟨between, hbetween, hrest⟩ := hleft
    exact ⟨between, hbetween, h.isName, hrest⟩
  | inr hright =>
    obtain ⟨overlap, hoverlap, hrest⟩ := hright
    cases overlap with
    | nil =>
      refine ⟨[], by simpa using hoverlap.symm, h.isName, ?_⟩
      simpa using hrest.symm
    | cons c overlap =>
      -- the overlap would start with a brace inside the first reference
      exfalso
      rw [refText_eq, List.cons_append, List.cons_append, List.cons.injEq] at hrest
      cases before with
      | nil => exact hbefore rfl
      | cons b before =>
        rw [refText_eq, List.cons_append, List.cons.injEq] at hoverlap
        apply open_notMem_refTail hother
        rw [hoverlap.2, hrest.1]
        exact List.mem_append_right _ List.mem_cons_self

/-- The pieces that are references are exactly the references of the text. -/
theorem occurs_iff {text before name after : List Char} :
    Occurs text before name after ↔ ∃ front back, pieces 0 text = front ++ .ref name :: back ∧
      spell front = before ∧ spell back = after := by
  constructor
  · intro h
    induction text using referenceInduction generalizing before with
    | nil =>
      have hsplit := congrArg List.length h.split
      simp [refText] at hsplit
    | ref other rest hother ih =>
      rw [pieces_refText hother]
      cases before with
      | nil =>
        have hother' := matchRef_eq_some.mpr ⟨hother, rest, rfl⟩
        have hname := matchRef_eq_some.mpr ⟨h.isName, after, h.split⟩
        obtain rfl : other = name := Option.some.inj (hother'.symm.trans hname)
        have hrest : rest = after := List.append_cancel_left h.split
        exact ⟨[], pieces 0 rest, rfl, rfl, by rw [spell_pieces, hrest]⟩
      | cons b before =>
        obtain ⟨between, hbetween, hrest⟩ := h.behind hother (by simp)
        obtain ⟨front, back, hpieces, hfront, hback⟩ := ih hrest
        exact ⟨.ref other :: front, back, by rw [hpieces]; rfl,
          by rw [spell_ref, hfront, hbetween], hback⟩
    | lit c rest hmatch ih =>
      rw [pieces_lit hmatch]
      cases before with
      | nil =>
        rw [matchRef_eq_some.mpr ⟨h.isName, after, h.split⟩] at hmatch
        cases hmatch
      | cons b before =>
        obtain ⟨rfl, hsplit⟩ := List.cons.inj h.split
        obtain ⟨front, back, hpieces, hfront, hback⟩ := ih ⟨h.isName, hsplit⟩
        exact ⟨.lit c :: front, back, by rw [hpieces]; rfl, by rw [spell_lit, hfront], hback⟩
  · intro h
    obtain ⟨front, back, hpieces, rfl, rfl⟩ := h
    have hmem : .ref name ∈ pieces 0 text := by simp [hpieces]
    refine ⟨isName_of_mem_pieces hmem, ?_⟩
    rw [← spell_pieces text, hpieces, spell_append, spell_ref]

theorem cutAtReferences_pieces (text : List Char) : CutAtReferences text (pieces 0 text) :=
  ⟨spell_pieces text, fun _ _ _ => occurs_iff⟩

/-! ## Rendered text -/

theorem SafeOn.tail {values : HashMap String String} {p : Piece} {ps : List Piece}
    (h : SafeOn values (p :: ps)) : SafeOn values ps :=
  fun name hname => h name (List.mem_cons_of_mem _ hname)

theorem SafeOn.append_right {values : HashMap String String} {ps qs : List Piece}
    (h : SafeOn values (ps ++ qs)) : SafeOn values qs :=
  fun name hname => h name (List.mem_append_right _ hname)

theorem exists_lit_of_render {values : HashMap String String} {ps : List Piece}
    (hsafe : SafeOn values ps) {c : Char} (hc : isSafeChar c = false) (hquote : c ≠ '\x27')
    {before after : List Char} (h : ps.flatMap (renderPiece values) = before ++ c :: after) :
    ∃ front back, ps = front ++ .lit c :: back ∧ front.flatMap (renderPiece values) = before ∧
      back.flatMap (renderPiece values) = after := by
  induction ps generalizing before with
  | nil => simp at h
  | cons p ps ih =>
    have hlater (between : List Char)
        (hbetween : before = renderPiece values p ++ between)
        (hrest : ps.flatMap (renderPiece values) = between ++ c :: after) :
        ∃ front back, p :: ps = front ++ .lit c :: back ∧
          front.flatMap (renderPiece values) = before ∧
          back.flatMap (renderPiece values) = after := by
      obtain ⟨front, back, hps, hfront, hback⟩ := ih hsafe.tail hrest
      exact ⟨p :: front, back, by rw [hps]; rfl, by rw [List.flatMap_cons, hfront, hbetween],
        hback⟩
    rw [List.flatMap_cons] at h
    cases List.append_eq_append_iff.mp h with
    | inl hleft =>
      obtain ⟨between, hbetween, hrest⟩ := hleft
      exact hlater between hbetween hrest
    | inr hright =>
      obtain ⟨own, hown, hrest⟩ := hright
      cases own with
      | nil => exact hlater [] (by simpa using hown.symm) (by simpa using hrest.symm)
      | cons d own =>
        obtain ⟨rfl, hrest⟩ := List.cons.inj hrest
        have hmem : c ∈ renderPiece values p := by
          rw [hown]
          exact List.mem_append_right _ List.mem_cons_self
        cases p with
        | ref name =>
          exfalso
          rw [renderPiece_ref, List.mem_cons, List.mem_append, List.mem_singleton] at hmem
          obtain heq | hvalue | heq := hmem
          · exact hquote heq
          · rw [hsafe name List.mem_cons_self c hvalue] at hc
            cases hc
          · exact hquote heq
        | lit d =>
          rw [renderPiece, List.mem_singleton] at hmem
          subst hmem
          have hlength := congrArg List.length hown
          simp only [renderPiece, List.length_append, List.length_cons, List.length_nil] at hlength
          have hbefore : before = [] := List.length_eq_zero_iff.mp (by omega)
          have hempty : own = [] := List.length_eq_zero_iff.mp (by omega)
          subst hbefore hempty
          exact ⟨[], ps, rfl, rfl, (List.cons.inj h).2⟩

theorem exists_lits_of_render {values : HashMap String String} {ps : List Piece}
    {start after : List Char} (hstart : '\x27' ∉ start)
    (h : ps.flatMap (renderPiece values) = start ++ after) :
    ∃ back, ps = start.map .lit ++ back ∧ back.flatMap (renderPiece values) = after := by
  induction start generalizing ps with
  | nil => exact ⟨ps, rfl, h⟩
  | cons c start ih =>
    rw [List.mem_cons, not_or] at hstart
    cases ps with
    | nil => cases h
    | cons p ps =>
      cases p with
      | lit d =>
        obtain ⟨rfl, hrest⟩ := List.cons.inj h
        obtain ⟨back, hps, hback⟩ := ih hstart.2 hrest
        exact ⟨back, by rw [hps]; rfl, hback⟩
      | ref name => exact absurd (List.cons.inj h).1 hstart.1

theorem render_map_lit (values : HashMap String String) (cs : List Char) :
    (cs.map Piece.lit).flatMap (renderPiece values) = cs := by
  induction cs with
  | nil => rfl
  | cons c cs ih => simp [renderPiece, ih]

/-- No reference is left in a rendered text. -/
theorem not_occurs_render {values : HashMap String String} {text : List Char}
    (hsafe : SafeOn values (pieces 0 text)) (before name after : List Char) :
    ¬Occurs ((pieces 0 text).flatMap (renderPiece values)) before name after := by
  intro h
  have htail : '\x27' ∉ refTail name :=
    List.not_mem_append quote_notMem_refOpen_tail
      (List.not_mem_append (quote_notMem_of_isName h.isName) (by decide))
  have hsplit := h.split
  rw [refText_eq, List.cons_append] at hsplit
  obtain ⟨front, back, hps, _, hback⟩ :=
    exists_lit_of_render hsafe (by decide) (by decide) hsplit
  obtain ⟨rest, hrest, _⟩ := exists_lits_of_render htail hback
  -- the template would have the same reference as plain characters
  have hcut := pieces_spell_of_append hps
  have hlits : spell (.lit '\x7b' :: back) = refText name ++ spell rest := by
    rw [hrest, spell_lit, spell_append, spell_map_lit]
    rfl
  rw [hlits, pieces_refText h.isName] at hcut
  cases hcut

theorem pieces_of_not_occurs {text : List Char}
    (h : ∀ before name after, ¬Occurs text before name after) :
    pieces 0 text = text.map .lit := by
  induction text using referenceInduction with
  | nil => rfl
  | ref name rest hname ih => exact absurd ⟨hname, rfl⟩ (h [] name rest)
  | lit c rest hmatch ih =>
    rw [pieces_lit hmatch, List.map_cons, ih]
    intro before name after hrest
    exact h (c :: before) name after ⟨hrest.isName, by rw [hrest.split]; rfl⟩

/-! ## Substitution -/

theorem isOk_substitute {bucketId query : String} {values : HashMap String String} :
    (substitute bucketId query values).isOk ↔ ∀ name ∈ references query, Resolved values name := by
  cases h : substitute bucketId query values with
  | ok result => simpa using (substitute_eq_ok.mp h).1
  | error e =>
    simp only [Checks.isOk_error, Bool.false_eq_true, false_iff]
    intro hresolved
    rw [substitute_eq_ok.mpr ⟨hresolved, rfl⟩] at h
    cases h

theorem forall_references {query : String} {p : String → Prop} :
    (∀ name ∈ references query, p name) ↔
      ∀ before name after, Occurs query.toList before name after → p (String.ofList name) := by
  constructor
  · intro h before name after hoccurs
    obtain ⟨front, back, hpieces, _⟩ := occurs_iff.mp hoccurs
    exact h _ (mem_references (by simp [hpieces]))
  · intro h name hname
    obtain ⟨piece, hpiece, hname⟩ := List.mem_filterMap.mp hname
    cases piece with
    | lit c => cases hname
    | ref name =>
      cases hname
      obtain ⟨front, back, hpieces⟩ := List.append_of_mem hpiece
      exact h _ name _ (occurs_iff.mpr ⟨front, back, hpieces, rfl, rfl⟩)

theorem substitute_of_not_occurs {query : String}
    (h : ∀ before name after, ¬Occurs query.toList before name after) (bucketId : String)
    (values : HashMap String String) : substitute bucketId query values = .ok query := by
  refine substitute_eq_ok.mpr ⟨?_, ?_⟩
  · refine forall_references.mpr ?_
    intro before name after hoccurs
    exact absurd hoccurs (h before name after)
  · rw [pieces_of_not_occurs h, render_map_lit, String.ofList_toList]

/-- Substitution succeeds exactly if every reference of the query has a safe value. Its result is
the query with exactly the references replaced by their quoted values; it holds no reference, so
that substituting again, with any values, gives it back. -/
theorem substitute_spec (bucketId query : String) (values : HashMap String String) :
    ((substitute bucketId query values).isOk ↔
      ∀ before name after, Occurs query.toList before name after →
        ∃ value, values.lookup (String.ofList name) = some value ∧
          validateSafeValue value = true) ∧
    ∀ result, substitute bucketId query values = .ok result →
      (∃ (ps : List Piece) (value : List Char → String), CutAtReferences query.toList ps ∧
        (∀ name, .ref name ∈ ps → values.lookup (String.ofList name) = some (value name)) ∧
        result.toList = ps.flatMap (Piece.text fun name => quoted (value name))) ∧
      (∀ before name after, ¬Occurs result.toList before name after) ∧
      ∀ bucketId' values', substitute bucketId' result values' = .ok result := by
  refine ⟨isOk_substitute.trans forall_references, ?_⟩
  intro result hresult
  obtain ⟨hresolved, rfl⟩ := substitute_eq_ok.mp hresult
  have hclean (before name after : List Char) : ¬Occurs
      (String.ofList ((pieces 0 query.toList).flatMap (renderPiece values))).toList
      before name after := by
    rw [String.toList_ofList]
    exact not_occurs_render (safeOn_of_resolved hresolved) before name after
  refine ⟨⟨pieces 0 query.toList, fun name => (values.lookup (String.ofList name)).getD "",
    cutAtReferences_pieces _, ?_, ?_⟩, hclean, substitute_of_not_occurs hclean⟩
  · intro name hname
    obtain ⟨value, hvalue, _⟩ := hresolved _ (mem_references hname)
    simp [hvalue]
  · rw [String.toList_ofList]
    apply List.flatMap_congr
    intro piece _
    cases piece <;> rfl

private def userSeven : HashMap String String :=
  (∅ : HashMap String String).insert "user_id" "7"

/-- A nested opening is no reference and stays as it is. -/
theorem substitute_spec_nested :
    substitute "b" "o = \x7bbucket_parameters.\x7bbucket_parameters.user_id\x7d\x7d" userSeven =
      .ok "o = \x7bbucket_parameters.'7'\x7d" ∧
    ∀ values, substitute "b" "o = \x7bbucket_parameters.'7'\x7d" values =
      .ok "o = \x7bbucket_parameters.'7'\x7d" := by
  have hfirst : substitute "b"
      "o = \x7bbucket_parameters.\x7bbucket_parameters.user_id\x7d\x7d" userSeven =
      .ok "o = \x7bbucket_parameters.'7'\x7d" := by decide
  exact ⟨hfirst, ((substitute_spec _ _ _).2 _ hfirst).2.2 "b"⟩

end EntitySync.Rules
