import EntitySync.Core.Types
import EntitySync.Library.Checks

/-!
# Template substitution

`{bucket_parameters.NAME}` references of a data query are replaced by the resolved value as a
single-quoted SQL literal. The reference regex is matched as the `regex` crate does: leftmost
matches that do not overlap, and since the name class excludes the closing brace, a match at a
position is unique.
-/

namespace EntitySync.Rules

inductive ParseError where
  | io (path source : String)
  | syntactic (message : String) (line column : Option Nat)
  | validation (bucketId message : String)
deriving DecidableEq, Repr

def ParseError.toText : ParseError → String
  | .io path source => "failed to read " ++ path ++ ": " ++ source
  | .syntactic message line column =>
    let suffix := match line, column with
      | some l, some c => " at line " ++ toString l ++ ", column " ++ toString c
      | some l, none => " at line " ++ toString l
      | _, _ => ""
    "TOML syntax error" ++ suffix ++ ": " ++ message
  | .validation bucketId message => "validation error in bucket '" ++ bucketId ++ "': " ++ message

def isSafeChar (c : Char) : Bool := c.isAlphanum || c == '_' || c == '-'

/-- `^[a-zA-Z0-9_-]{1,128}$`. -/
def validateSafeValue (value : String) : Bool :=
  1 ≤ value.toList.length && value.toList.length ≤ 128 && value.toList.all isSafeChar

def isNameChar (c : Char) : Bool := c.isAlphanum || c == '_'

def refOpen : List Char := "\x7bbucket_parameters.".toList

def matchRef (text : List Char) : Option (List Char) :=
  if refOpen.isPrefixOf text then
    let tail := text.drop refOpen.length
    let name := tail.takeWhile isNameChar
    if name ≠ [] ∧ (tail.dropWhile isNameChar).head? = some '\x7d' then some name else none
  else none

/-- A query as the regex engine sees it: references, and the characters between them. -/
inductive Piece where
  | lit (c : Char)
  | ref (name : List Char)
deriving DecidableEq, Repr

/-- Cut a text into pieces; the first argument counts the characters of the current match that
are still to be passed over. -/
def pieces : Nat → List Char → List Piece
  | _, [] => []
  | skip + 1, _ :: cs => pieces skip cs
  | 0, c :: cs =>
    match matchRef (c :: cs) with
    | some name => .ref name :: pieces (refOpen.length + name.length) cs
    | none => .lit c :: pieces 0 cs

def references (query : String) : List String :=
  (pieces 0 query.toList).filterMap fun piece =>
    match piece with
    | .lit _ => none
    | .ref name => some (String.ofList name)

/-- The first pass of `substitute` at one reference. -/
def checkReference (bucketId : String) (resolvedParameters : HashMap String String)
    (name : String) : Except ParseError Unit :=
  match resolvedParameters.lookup name with
  | none => .error (.validation bucketId
      ("template references unresolved parameter 'bucket_parameters." ++ name ++ "'"))
  | some value =>
    if validateSafeValue value then .ok ()
    else .error (.validation bucketId
      ("value for parameter '" ++ name ++
        "' failed the safe-value allowlist (must match [a-zA-Z0-9_-]\x7b1,128\x7d)"))

/-- The second pass of `substitute` at one piece. -/
def renderPiece (resolvedParameters : HashMap String String) : Piece → List Char
  | .lit c => [c]
  | .ref name =>
    '\x27' :: ((resolvedParameters.lookup (String.ofList name)).getD "").toList ++ ['\x27']

def substitute (bucketId query : String) (resolvedParameters : HashMap String String) :
    Except ParseError String := do
  (references query).forM (checkReference bucketId resolvedParameters)
  return String.ofList ((pieces 0 query.toList).flatMap (renderPiece resolvedParameters))

private def oneUser : HashMap String String :=
  (∅ : HashMap String String).insert "user_id" "abc-123"

example : substitute "b1" "SELECT * FROM t WHERE o = \x7bbucket_parameters.user_id\x7d" oneUser =
    .ok "SELECT * FROM t WHERE o = 'abc-123'" := by decide

theorem mem_references {query : String} {name : List Char} :
    .ref name ∈ pieces 0 query.toList → String.ofList name ∈ references query := by
  intro h
  exact List.mem_filterMap.mpr ⟨.ref name, h, rfl⟩

theorem renderPiece_ref (ps : HashMap String String) (name : List Char) :
    renderPiece ps (.ref name) =
      '\x27' :: (((ps.lookup (String.ofList name)).getD "").toList ++ ['\x27']) := rfl

def Resolved (values : HashMap String String) (name : String) : Prop :=
  ∃ value, values.lookup name = some value ∧ validateSafeValue value = true

theorem checkReference_eq_ok {bucketId name : String} {values : HashMap String String} :
    checkReference bucketId values name = .ok () ↔ Resolved values name := by
  rw [checkReference, Resolved]
  cases values.lookup name with
  | none => simp
  | some value => cases hsafe : validateSafeValue value <;> simp [hsafe]

theorem substitute_eq_ok {bucketId query result : String} {values : HashMap String String} :
    substitute bucketId query values = .ok result ↔
      (∀ name ∈ references query, Resolved values name) ∧
        result = String.ofList ((pieces 0 query.toList).flatMap (renderPiece values)) := by
  have hchecks : (references query).forM (checkReference bucketId values) = .ok () ↔
      ∀ name ∈ references query, Resolved values name := by
    simp only [Checks.forM_eq_ok, checkReference_eq_ok]
  rw [← hchecks, substitute, Checks.bind_eq_ok]
  constructor
  · intro h
    obtain ⟨_, hall, hresult⟩ := h
    cases hresult
    exact ⟨hall, rfl⟩
  · intro h
    exact ⟨(), h.1, by rw [h.2]; rfl⟩

def SafeOn (values : HashMap String String) (ps : List Piece) : Prop :=
  ∀ name, .ref name ∈ ps →
    ∀ c ∈ ((values.lookup (String.ofList name)).getD "").toList, isSafeChar c = true

theorem safeOn_of_resolved {query : String} {values : HashMap String String}
    (h : ∀ name ∈ references query, Resolved values name) :
    SafeOn values (pieces 0 query.toList) := by
  intro name hname c hc
  obtain ⟨value, hvalue, hsafe⟩ := h _ (mem_references hname)
  rw [hvalue, Option.getD_some] at hc
  simp only [validateSafeValue, Bool.and_eq_true, List.all_eq_true] at hsafe
  exact hsafe.2 c hc

private theorem toNat_of_between {c lo hi : Char}
    (h : (decide (c.val ≥ lo.val) && decide (c.val ≤ hi.val)) = true) :
    lo.toNat ≤ c.toNat ∧ c.toNat ≤ hi.toNat := by
  have hrange := (Bool.and_eq_true _ _).mp h
  exact ⟨UInt32.le_iff_toNat_le.mp (of_decide_eq_true hrange.1),
    UInt32.le_iff_toNat_le.mp (of_decide_eq_true hrange.2)⟩

theorem toNat_of_isAlphanum {c : Char} (h : c.isAlphanum = true) :
    (65 ≤ c.toNat ∧ c.toNat ≤ 90) ∨ (97 ≤ c.toNat ∧ c.toNat ≤ 122) ∨
      (48 ≤ c.toNat ∧ c.toNat ≤ 57) := by
  cases (Bool.or_eq_true _ _).mp h with
  | inl halpha =>
    cases (Bool.or_eq_true _ _).mp halpha with
    | inl hupper => exact Or.inl (toNat_of_between ((Bool.decide_and _ _).symm.trans hupper))
    | inr hlower => exact Or.inr (Or.inl (toNat_of_between hlower))
  | inr hdigit => exact Or.inr (Or.inr (toNat_of_between hdigit))

theorem isSafeChar_plain {c : Char} (h : isSafeChar c = true) :
    c ≠ '\x22' ∧ c ≠ '\x5c' ∧ 0x20 ≤ c.toNat := by
  simp only [isSafeChar, Bool.or_eq_true, beq_iff_eq] at h
  have hcode : 0x2d ≤ c.toNat ∧ c.toNat ≠ 0x5c := by
    obtain (halphanum | rfl) | rfl := h
    · have hranges := toNat_of_isAlphanum halphanum
      omega
    · decide
    · decide
  refine ⟨?_, ?_, by omega⟩
  · rintro rfl
    exact absurd hcode.1 (by decide)
  · rintro rfl
    exact hcode.2 rfl

end EntitySync.Rules
