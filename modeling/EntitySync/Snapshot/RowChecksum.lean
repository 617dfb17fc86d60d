import EntitySync.Core.Types
import EntitySync.Library.BigEndian
import EntitySync.Library.Delimited

/-!
# Row checksums

`checksum_rows` hashes `id|version;` for every row of a batch and `checksum_batches` hashes the
batch checksums. The fields are not escaped and an absent version is written as an empty one, so
what the hasher sees determines the rows only as long as the texts avoid the delimiters.
-/

namespace EntitySync.Snapshot

open Json (Value)

def textBytes (text : String) : List UInt8 := text.toByteArray.data.toList

/-- What `hash_json_scalar` feeds to the hasher. -/
def hashJsonScalar : Value → List UInt8
  | .string s => textBytes s
  | .number n => textBytes n.toText
  | .bool b => [if b then 1 else 0]
  | .null => textBytes "null"
  | .array items => textBytes (Value.array items).toText
  | .object fields => textBytes (Value.object fields).toText

def hashRowIdentity (row : Value) : List UInt8 :=
  (match row.get "id" with
    | some id => hashJsonScalar id
    | none => []) ++ textBytes "|" ++
  (match row.get "_version" with
    | some version => hashJsonScalar version
    | none => []) ++ textBytes ";"

def rowStream (rows : List Value) : List UInt8 := rows.flatMap hashRowIdentity

section
variable (xxh3 : List UInt8 → UInt64)

def checksumRows (rows : List Value) : BucketChecksum := xxh3 (rowStream rows)

/-- Each checksum enters with its `to_le_bytes`. -/
def checksumBatches (batchChecksums : List BucketChecksum) : BucketChecksum :=
  xxh3 (batchChecksums.flatMap fun checksum => (BigEndian.bytes 8 checksum.toNat).reverse)

end

def idText (row : Value) : Option String := (row.get "id").bind Value.scalarText

def versionText (row : Value) : Option String := (row.get "_version").bind Value.scalarText

/-- A row with a string or number `id` and, if it has one, a string or number `_version`, whose
texts are over the given characters. An empty `_version` is there only if `emptyVersion` allows
it. -/
structure RowOver (idChars versionChars : Char → Prop) (emptyVersion : Prop) (row : Value) :
    Prop where
  id : ∃ text, idText row = some text ∧ ∀ c ∈ text.toList, idChars c
  version : row.get "_version" = none ∨ ∃ text, versionText row = some text ∧
    (∀ c ∈ text.toList, versionChars c) ∧ (text = "" → emptyVersion)

/-- Among lists of such rows the byte stream determines the ids and the versions. -/
def IdentifiesRows (idChars versionChars : Char → Prop) (emptyVersion : Prop) : Prop :=
  ∀ rows rows' : List Value,
    (∀ row ∈ rows, RowOver idChars versionChars emptyVersion row) →
    (∀ row ∈ rows', RowOver idChars versionChars emptyVersion row) →
    rowStream rows = rowStream rows' →
      rows.length = rows'.length ∧ rows.map idText = rows'.map idText ∧
        rows.map versionText = rows'.map versionText

def rowFields (row : Value) : List Char × List Char :=
  (((idText row).getD "").toList, ((versionText row).getD "").toList)

theorem textBytes_append (s t : String) : textBytes (s ++ t) = textBytes s ++ textBytes t := by
  simp [textBytes]

theorem hashJsonScalar_of_text {v : Value} {text : String} (h : v.scalarText = some text) :
    hashJsonScalar v = textBytes text := by
  cases v with
  | string s =>
    cases h
    rfl
  | number n =>
    cases h
    rfl
  | null | bool | array | object => cases h

section
variable {idChars versionChars : Char → Prop} {emptyVersion : Prop}

theorem RowOver.hashRowIdentity_eq {row : Value}
    (h : RowOver idChars versionChars emptyVersion row) :
    hashRowIdentity row = textBytes (.ofList (Delimited.record '|' ';' (rowFields row))) := by
  obtain ⟨⟨id, hid, _⟩, hversion⟩ := h
  have hfields : String.ofList (Delimited.record '|' ';' (rowFields row)) =
      (idText row).getD "" ++ "|" ++ (versionText row).getD "" ++ ";" := by
    apply String.toList_injective
    simp [Delimited.record, rowFields]
  obtain ⟨v, hv, htext⟩ := Option.bind_eq_some_iff.mp hid
  rw [hfields, hid, textBytes_append, textBytes_append, textBytes_append]
  rcases hversion with hnone | ⟨version, hsome, _⟩
  · simp [hashRowIdentity, hv, hashJsonScalar_of_text htext, versionText, hnone, textBytes]
  · obtain ⟨w, hw, hwtext⟩ := Option.bind_eq_some_iff.mp hsome
    rw [hsome]
    simp [hashRowIdentity, hv, hashJsonScalar_of_text htext, hw, hashJsonScalar_of_text hwtext]

theorem rowStream_eq {rows : List Value}
    (h : ∀ row ∈ rows, RowOver idChars versionChars emptyVersion row) :
    rowStream rows =
      textBytes (.ofList ((rows.map rowFields).flatMap (Delimited.record '|' ';'))) := by
  induction rows with
  | nil => rfl
  | cons row rows ih =>
    rw [List.forall_mem_cons] at h
    rw [rowStream, List.flatMap_cons, ← rowStream, ih h.2, h.1.hashRowIdentity_eq,
      ← textBytes_append, ← String.ofList_append, List.map_cons, List.flatMap_cons]

theorem RowOver.rowFields_over {row : Value} (h : RowOver idChars versionChars emptyVersion row) :
    (∀ c ∈ (rowFields row).1, idChars c) ∧ ∀ c ∈ (rowFields row).2, versionChars c := by
  obtain ⟨⟨id, hid, hidChars⟩, hversion⟩ := h
  rw [rowFields, hid]
  refine ⟨hidChars, ?_⟩
  rcases hversion with hnone | ⟨version, hsome, hchars, _⟩
  · simp [versionText, hnone]
  · rw [hsome]
    exact hchars

theorem RowOver.idText_eq {row : Value} (h : RowOver idChars versionChars emptyVersion row) :
    idText row = some (.ofList (rowFields row).1) := by
  obtain ⟨text, htext, _⟩ := h.id
  simp [rowFields, htext]

theorem RowOver.versionText_eq {row : Value} (h : RowOver idChars versionChars emptyVersion row)
    (hempty : ¬emptyVersion) : versionText row =
      if (rowFields row).2 = [] then none else some (.ofList (rowFields row).2) := by
  rcases h.version with hnone | ⟨text, htext, _, hnonempty⟩
  · simp [rowFields, versionText, hnone]
  · have hne : text.toList ≠ [] := by
      intro hnil
      exact hempty (hnonempty (String.toList_eq_nil_iff.mp hnil))
    simp [rowFields, htext, hne]

/-- Rows whose fields can be read back from the stream are determined by it. -/
theorem identifiesRows_of_inj (hempty : ¬emptyVersion)
    (hinj : ∀ xs ys : List (List Char × List Char),
      (∀ e ∈ xs, (∀ c ∈ e.1, idChars c) ∧ ∀ c ∈ e.2, versionChars c) →
      (∀ e ∈ ys, (∀ c ∈ e.1, idChars c) ∧ ∀ c ∈ e.2, versionChars c) →
      xs.flatMap (Delimited.record '|' ';') = ys.flatMap (Delimited.record '|' ';') → xs = ys) :
    IdentifiesRows idChars versionChars emptyVersion := by
  intro rows rows' hrows hrows' hstream
  have hover {rs : List Value} (h : ∀ row ∈ rs, RowOver idChars versionChars emptyVersion row) :
      ∀ e ∈ rs.map rowFields, (∀ c ∈ e.1, idChars c) ∧ ∀ c ∈ e.2, versionChars c := by
    intro e he
    obtain ⟨row, hrow, rfl⟩ := List.mem_map.mp he
    exact (h row hrow).rowFields_over
  have hids {rs : List Value} (h : ∀ row ∈ rs, RowOver idChars versionChars emptyVersion row) :
      rs.map idText = (rs.map rowFields).map fun e => some (.ofList e.1) := by
    rw [List.map_map]
    exact List.map_congr_left fun row hrow => (h row hrow).idText_eq
  have hversions {rs : List Value}
      (h : ∀ row ∈ rs, RowOver idChars versionChars emptyVersion row) :
      rs.map versionText =
        (rs.map rowFields).map fun e => if e.2 = [] then none else some (.ofList e.2) := by
    rw [List.map_map]
    exact List.map_congr_left fun row hrow => (h row hrow).versionText_eq hempty
  rw [rowStream_eq hrows, rowStream_eq hrows'] at hstream
  have hfields : rows.map rowFields = rows'.map rowFields :=
    hinj _ _ (hover hrows) (hover hrows') (String.ofList_injective (eq_of_utf8_eq hstream))
  refine ⟨?_, ?_, ?_⟩
  · simpa using congrArg List.length hfields
  · rw [hids hrows, hids hrows', hfields]
  · rw [hversions hrows, hversions hrows', hfields]

def identityRow (id : String) : Option String → Value
  | none => .object [("id", .string id)]
  | some version => .object [("_version", .string version), ("id", .string id)]

theorem rowOver_identityRow {id : String} {version : Option String}
    (hid : ∀ c ∈ id.toList, idChars c)
    (hversion : ∀ text ∈ version, (∀ c ∈ text.toList, versionChars c) ∧
      (text = "" → emptyVersion)) :
    RowOver idChars versionChars emptyVersion (identityRow id version) := by
  cases version with
  | none => exact ⟨⟨id, rfl, hid⟩, Or.inl rfl⟩
  | some version => exact ⟨⟨id, rfl, hid⟩, Or.inr ⟨version, rfl, hversion version rfl⟩⟩

def TextsOver (idChars versionChars : Char → Prop) (emptyVersion : Prop)
    (e : String × Option String) : Prop :=
  (∀ c ∈ e.1.toList, idChars c) ∧
    ∀ text ∈ e.2, (∀ c ∈ text.toList, versionChars c) ∧ (text = "" → emptyVersion)

theorem IdentifiesRows.texts_eq (h : IdentifiesRows idChars versionChars emptyVersion)
    (xs ys : List (String × Option String))
    (hxs : ∀ e ∈ xs, TextsOver idChars versionChars emptyVersion e)
    (hys : ∀ e ∈ ys, TextsOver idChars versionChars emptyVersion e)
    (hstream : rowStream (xs.map fun e => identityRow e.1 e.2) =
      rowStream (ys.map fun e => identityRow e.1 e.2)) : xs = ys := by
  have hover {es : List (String × Option String)}
      (hes : ∀ e ∈ es, TextsOver idChars versionChars emptyVersion e) :
      ∀ row ∈ es.map (fun e => identityRow e.1 e.2),
        RowOver idChars versionChars emptyVersion row := by
    intro row hrow
    obtain ⟨e, he, rfl⟩ := List.mem_map.mp hrow
    exact rowOver_identityRow (hes e he).1 (hes e he).2
  have htexts (es : List (String × Option String)) :
      ((es.map fun e => identityRow e.1 e.2).map idText).zip
        ((es.map fun e => identityRow e.1 e.2).map versionText) =
      es.map fun e => (some e.1, e.2) := by
    induction es with
    | nil => rfl
    | cons e es ih =>
      obtain ⟨id, version⟩ := e
      cases version with
      | none => exact congrArg (_ :: ·) ih
      | some version => exact congrArg (_ :: ·) ih
  obtain ⟨_, hids, hversions⟩ := h _ _ (hover hxs) (hover hys) hstream
  have hsame := htexts xs
  rw [hids, hversions, htexts ys] at hsame
  refine (Function.Injective.list_map ?_ hsame).symm
  intro e f heq
  simpa [Prod.ext_iff] using heq

/-- The stream determines the rows if and only if no version can be empty and the delimiters can be
told from the texts, read from the left or from the right: no id has a `|` and no version a `;`,
or no id has a `;` and no version a `|`. -/
theorem identifiesRows_iff (idChars versionChars : Char → Prop) (emptyVersion : Prop) :
    IdentifiesRows idChars versionChars emptyVersion ↔ ¬emptyVersion ∧
      (¬idChars '|' ∧ ¬versionChars ';' ∨ ¬idChars ';' ∧ ¬versionChars '|') := by
  constructor
  · intro h
    have hempty : ¬emptyVersion := by
      intro hempty
      have heq := h.texts_eq [("", some "")] [("", none)]
        (by simp [TextsOver, hempty]) (by simp [TextsOver]) (by decide)
      exact absurd heq (by decide)
    refine ⟨hempty, ?_⟩
    by_contra hcond
    rw [not_or, Classical.not_and_iff_not_or_not, Classical.not_and_iff_not_or_not] at hcond
    simp only [Classical.not_not] at hcond
    rcases hcond with ⟨hid | hversion, hid' | hversion'⟩
    · have heq := h.texts_eq [("|;", none)] [("", none), ("", none)]
        (by simp [TextsOver, hid, hid']) (by simp [TextsOver]) (by decide)
      exact absurd heq (by decide)
    · have heq := h.texts_eq [("|", none)] [("", some "|")]
        (by simp [TextsOver, hid]) (by simp [TextsOver, hversion']) (by decide)
      exact absurd heq (by decide)
    · have heq := h.texts_eq [("", none), (";", none)] [("", some ";"), ("", none)]
        (by simp [TextsOver, hid']) (by simp [TextsOver, hversion]) (by decide)
      exact absurd heq (by decide)
    · have heq := h.texts_eq [("", some ";|")] [("", none), ("", none)]
        (by simp [TextsOver, hversion, hversion']) (by simp [TextsOver]) (by decide)
      exact absurd heq (by decide)
  · intro h
    obtain ⟨hempty, hleft | hright⟩ := h
    · apply identifiesRows_of_inj hempty
      intro xs ys hxs hys
      apply Delimited.flatMap_record_inj_left
      · intro e he
        exact ⟨fun hmem => hleft.1 ((hxs e he).1 _ hmem), fun hmem => hleft.2 ((hxs e he).2 _ hmem)⟩
      · intro e he
        exact ⟨fun hmem => hleft.1 ((hys e he).1 _ hmem), fun hmem => hleft.2 ((hys e he).2 _ hmem)⟩
    · apply identifiesRows_of_inj hempty
      intro xs ys hxs hys
      apply Delimited.flatMap_record_inj_right
      · intro e he
        exact ⟨fun hmem => hright.1 ((hxs e he).1 _ hmem),
          fun hmem => hright.2 ((hxs e he).2 _ hmem)⟩
      · intro e he
        exact ⟨fun hmem => hright.1 ((hys e he).1 _ hmem),
          fun hmem => hright.2 ((hys e he).2 _ hmem)⟩

end

/-- One row whose id holds the delimiters reads like two rows, and an empty version like none. -/
theorem rowStream_collides :
    rowStream [.object [("id", .string "1|;2")]] =
        rowStream [.object [("id", .string "1")], .object [("id", .string "2")]] ∧
      rowStream [.object [("_version", .string ""), ("id", .string "1")]] =
        rowStream [.object [("id", .string "1")]] ∧
      ¬IdentifiesRows (fun _ => True) (fun _ => True) True := by
  have hsplit : rowStream [.object [("id", .string "1|;2")]] =
      rowStream [.object [("id", .string "1")], .object [("id", .string "2")]] := by decide
  refine ⟨hsplit, by decide, ?_⟩
  intro h
  have hover (id : String) :
      RowOver (fun _ => True) (fun _ => True) True (.object [("id", .string id)]) :=
    ⟨⟨id, rfl, fun _ _ => trivial⟩, Or.inl rfl⟩
  have hlength := (h _ _ (by simp [hover]) (by simp [hover]) hsplit).1
  exact absurd hlength (by decide)

end EntitySync.Snapshot
