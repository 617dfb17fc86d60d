import EntitySync.Library.Keyset
import EntitySync.Snapshot.Stream

/-!
# Paging over any id column

`SnapshotStream` for one data query, over an id column of any type. A page is ordered by the
column's own order and filtered by a comparison with the cursor after a cast, and the cursor is the
text of the last id as `row_to_json` prints it. The stream is a keyset walk as long as this text
cuts the rows where the order does; for `bigint` ids it always is one.
-/

namespace EntitySync.Snapshot

open Json (Value)
open Keyset (Before Beyond Distinct Walk)
open StepSystem

/-- An id column, as Postgres and `row_to_json` treat its type: its name, the order of
`ORDER BY`, the JSON form of an id, and an id and a text as a number. Texts compare by their sort
keys. -/
structure IdColumn (α ν τ : Type) where
  typeName : String
  le : α → α → Bool
  le_total : ∀ x y, le x y = true ∨ le y x = true
  le_trans : ∀ x y z, le x y = true → le y z = true → le x z = true
  toJson : α → Value
  numeric : α → ν
  text : α → String
  ofText : String → ν
  sortKey : String → τ

namespace IdColumn

variable {α ν τ : Type} (col : IdColumn α ν τ)

def idLe : Option α → Option α → Bool
  | _, none => true
  | none, some _ => false
  | some x, some y => col.le x y

def jsonId : Option α → Value
  | none => .null
  | some x => col.toJson x

theorem idLe_total (x y : Option α) : col.idLe x y = true ∨ col.idLe y x = true := by
  cases x with
  | none => exact Or.inr rfl
  | some x =>
    cases y with
    | none => exact Or.inl rfl
    | some y => exact col.le_total x y

theorem idLe_trans {x y z : Option α} (hxy : col.idLe x y = true) (hyz : col.idLe y z = true) :
    col.idLe x z = true := by
  cases z with
  | none => rfl
  | some z =>
    cases y with
    | none => cases hyz
    | some y =>
      cases x with
      | none => cases hxy
      | some x => exact col.le_trans x y z hxy hyz

end IdColumn

section
variable {α ν τ : Type}

structure ResultRow (col : IdColumn α ν τ) where
  id : Option α
  data : Value
  idField : data.get "id" = some (col.jsonId id)

def ResultRow.cursor {col : IdColumn α ν τ} (r : ResultRow col) : Option String :=
  (r.data.get "id").bind rowIdAsString

theorem ResultRow.cursor_eq {col : IdColumn α ν τ} (r : ResultRow col) :
    r.cursor = rowIdAsString (col.jsonId r.id) := by
  rw [ResultRow.cursor, r.idField, Option.bind_some]

def byId (col : IdColumn α ν τ) (r s : ResultRow col) : Prop := col.idLe r.id s.id = true

instance (col : IdColumn α ν τ) : DecidableRel (byId col) :=
  fun r s => inferInstanceAs (Decidable (col.idLe r.id s.id = true))

instance (col : IdColumn α ν τ) : Std.Total (byId col) := ⟨fun r s => col.idLe_total r.id s.id⟩

instance (col : IdColumn α ν τ) : IsTrans (ResultRow col) (byId col) :=
  ⟨fun _ _ _ => col.idLe_trans⟩

structure SnapshotBatch (ρ : Type) where
  rows : List ρ
  offset : Nat
  isLast : Bool

inductive Progress where
  | reading (paging : Paging)
  | complete
  | failed

structure QueryStream (col : IdColumn α ν τ) where
  batches : List (SnapshotBatch (ResultRow col))
  progress : Progress

/-- The type name that the query of `detect_id_cast` returns: that of some row's id, if there is
a row. -/
def detectedType (col : IdColumn α ν τ) (rows : List (ResultRow col)) : Option String :=
  rows.head?.map fun _ => col.typeName

/-- The stream before its first page, with the cast detected on the rows as they then are. -/
def start (col : IdColumn α ν τ) (rows : List (ResultRow col)) : QueryStream col :=
  ⟨[], .reading ⟨detectIdCast (detectedType col rows), none, 0⟩⟩

theorem detectedType_of_ne_nil {col : IdColumn α ν τ} {rows : List (ResultRow col)}
    (h : rows ≠ []) : detectedType col rows = some col.typeName := by
  cases rows with
  | nil => exact absurd rfl h
  | cons r rows => rfl

variable [LinearOrder ν] [LinearOrder τ] {col : IdColumn α ν τ}

/-- The page query's `WHERE` clause. A comparison with null is not true. -/
def passes (col : IdColumn α ν τ) (idCast : IdCast) : Option String → Option α → Bool
  | none, _ => true
  | some _, none => false
  | some cursor, some id =>
    match idCast with
    | .numeric => decide (col.ofText cursor < col.numeric id)
    | .text => decide (col.sortKey cursor < col.sortKey (col.text id))

/-- One page query. The limit is bound as an `i64`, and Postgres refuses a negative one. -/
def fetchPage (rows : List (ResultRow col)) (cursor : Option String) (limit : UInt64)
    (idCast : IdCast) : Option (List (ResultRow col)) :=
  if limit.toInt64 < 0 then none
  else
    some (((rows.filter fun r => passes col idCast cursor r.id).insertionSort (byId col)).take
      limit.toNat)

def readPage (batchSize : UInt64) (rows : List (ResultRow col)) (paging : Paging) :
    Option (SnapshotBatch (ResultRow col) × Option Paging) :=
  (fetchPage rows paging.cursor batchSize paging.idCast).map fun page =>
    let isLast := decide (page.length < batchSize.toNat)
    (⟨page, paging.offset, isLast⟩,
      if isLast then none
      else some {
        paging with
        cursor := page.getLast?.bind ResultRow.cursor
        offset := paging.offset + 1 })

namespace QueryStream

def step (batchSize : UInt64) (s : QueryStream col) (rows : List (ResultRow col)) :
    Option (QueryStream col) :=
  match s.progress with
  | .reading paging =>
    match readPage batchSize rows paging with
    | none => some { s with progress := .failed }
    | some (batch, none) => some ⟨s.batches ++ [batch], .complete⟩
    | some (batch, some next) => some ⟨s.batches ++ [batch], .reading next⟩
  | .complete | .failed => none

def emitted (s : QueryStream col) : List (ResultRow col) := s.batches.flatMap (·.rows)

def isComplete (s : QueryStream col) : Bool :=
  match s.progress with
  | .complete => true
  | .reading _ | .failed => false

def walk (s : QueryStream col) : Walk (ResultRow col) := ⟨s.emitted, s.isComplete⟩

end QueryStream

theorem limit_neg_iff (limit : UInt64) : limit.toInt64 < 0 ↔ 2 ^ 63 ≤ limit.toNat := by
  rw [Int64.lt_iff_toInt_lt]
  change limit.toBitVec.toInt < 0 ↔ _
  rw [BitVec.toInt_neg_iff, UInt64.toNat_toBitVec]
  omega

theorem fetchPage_eq_some {rows page : List (ResultRow col)} {cursor : Option String}
    {limit : UInt64} {idCast : IdCast} : fetchPage rows cursor limit idCast = some page ↔
      limit.toNat < 2 ^ 63 ∧
      page = ((rows.filter fun r => passes col idCast cursor r.id).insertionSort (byId col)).take
        limit.toNat := by
  rw [fetchPage, Option.ite_none_left_eq_some, limit_neg_iff, Option.some.injEq, not_le, eq_comm]

theorem mem_fetchPage {rows page : List (ResultRow col)} {cursor : Option String}
    {limit : UInt64} {idCast : IdCast} (h : fetchPage rows cursor limit idCast = some page)
    {r : ResultRow col} (hr : r ∈ page) : r ∈ rows ∧ passes col idCast cursor r.id = true := by
  obtain ⟨_, rfl⟩ := fetchPage_eq_some.mp h
  simpa using List.mem_of_mem_take hr

/-- The cursor of each of the rows cuts them where the order does. -/
def CursorExact (col : IdColumn α ν τ) (idCast : IdCast) (rows : ResultRow col → Prop) : Prop :=
  ∀ l r, rows l → rows r → ∃ text, l.cursor = some text ∧
    (passes col idCast (some text) r.id = true ↔ Before (byId col) l r)

namespace QueryStream

variable {batchSize : UInt64} {s t : QueryStream col} {rows page : List (ResultRow col)}
  {paging : Paging}

theorem step_of_refused (hread : s.progress = .reading paging)
    (hlimit : 2 ^ 63 ≤ batchSize.toNat) :
    step batchSize s rows = some { s with progress := .failed } := by
  have hneg : batchSize.toInt64 < 0 := (limit_neg_iff batchSize).mpr hlimit
  simp [step, hread, readPage, fetchPage, hneg]

theorem not_complete_of_refused {states : List (List (ResultRow col))}
    (hlimit : 2 ^ 63 ≤ batchSize.toNat) (hs : s.progress ≠ .complete)
    (hrun : run (step batchSize) s states = some t) : t.progress ≠ .complete := by
  refine run_invariant (I := fun s => s.progress ≠ .complete) ?_ hs hrun
  intro s rows t _ hstep
  cases hread : s.progress with
  | reading paging =>
    rw [step_of_refused hread hlimit] at hstep
    cases hstep
    simp
  | complete | failed => simp [step, hread] at hstep

theorem step_of_short (hread : s.progress = .reading paging)
    (hpage : fetchPage rows paging.cursor batchSize paging.idCast = some page)
    (hshort : page.length < batchSize.toNat) :
    step batchSize s rows = some ⟨s.batches ++ [⟨page, paging.offset, true⟩], .complete⟩ := by
  simp [step, hread, readPage, hpage, hshort]

theorem step_of_full (hread : s.progress = .reading paging)
    (hpage : fetchPage rows paging.cursor batchSize paging.idCast = some page)
    (hfull : ¬page.length < batchSize.toNat) :
    step batchSize s rows = some ⟨s.batches ++ [⟨page, paging.offset, false⟩], .reading {
      paging with
      cursor := page.getLast?.bind ResultRow.cursor
      offset := paging.offset + 1 }⟩ := by
  simp only [step, hread, readPage, hpage, hfull, Option.map_some, decide_false]
  rfl

theorem exists_page_of_step (hlimit : batchSize.toNat < 2 ^ 63)
    (hstep : step batchSize s rows = some t) : ∃ paging page,
      s.progress = .reading paging ∧
      fetchPage rows paging.cursor batchSize paging.idCast = some page ∧
      (page.length < batchSize.toNat ∧
          t = ⟨s.batches ++ [⟨page, paging.offset, true⟩], .complete⟩ ∨
        ¬page.length < batchSize.toNat ∧
          t = ⟨s.batches ++ [⟨page, paging.offset, false⟩], .reading {
            paging with
            cursor := page.getLast?.bind ResultRow.cursor
            offset := paging.offset + 1 }⟩) := by
  cases hread : s.progress with
  | complete | failed => simp [step, hread] at hstep
  | reading paging =>
    obtain ⟨page, hpage⟩ : ∃ page, fetchPage rows paging.cursor batchSize paging.idCast =
        some page := ⟨_, fetchPage_eq_some.mpr ⟨hlimit, rfl⟩⟩
    refine ⟨paging, page, rfl, hpage, ?_⟩
    by_cases hshort : page.length < batchSize.toNat
    · rw [step_of_short hread hpage hshort, Option.some.injEq] at hstep
      exact Or.inl ⟨hshort, hstep.symm⟩
    · rw [step_of_full hread hpage hshort, Option.some.injEq] at hstep
      exact Or.inr ⟨hshort, hstep.symm⟩

omit [LinearOrder ν] [LinearOrder τ] in
@[simp] theorem emitted_concat (s : QueryStream col) (batch : SnapshotBatch (ResultRow col))
    (progress : Progress) :
    emitted ⟨s.batches ++ [batch], progress⟩ = s.emitted ++ batch.rows := by
  simp [emitted]

def Shaped (batchSize : UInt64) (s : QueryStream col) : Prop :=
  match s.progress with
  | .reading _ => ∀ b ∈ s.batches, b.rows.length = batchSize.toNat ∧ b.isLast = false
  | .complete => ∃ full final, s.batches = full ++ [final] ∧
    (∀ b ∈ full, b.rows.length = batchSize.toNat ∧ b.isLast = false) ∧
    final.rows.length < batchSize.toNat ∧ final.isLast = true
  | .failed => False

structure Tracks (batchSize : UInt64) (idCast : IdCast) (rows : ResultRow col → Prop)
    (s : QueryStream col) : Prop where
  offsets : s.batches.map (·.offset) = List.range s.batches.length
  shaped : s.Shaped batchSize
  position : ∀ paging, s.progress = .reading paging → paging.idCast = idCast ∧
    paging.offset = s.batches.length ∧ ∀ r, rows r →
      (passes col idCast paging.cursor r.id = true ↔ Beyond (byId col) s.emitted.getLast? r)

section
variable {idCast : IdCast} {S : ResultRow col → Prop}

theorem fetchPage_eq_page {cursor : Option String} {last : Option (ResultRow col)}
    (hlimit : batchSize.toNat < 2 ^ 63)
    (h : ∀ r ∈ rows, passes col idCast cursor r.id = true ↔ Beyond (byId col) last r) :
    fetchPage rows cursor batchSize idCast =
      some (Keyset.page (byId col) batchSize.toNat rows last) := by
  rw [fetchPage_eq_some, Keyset.page, Keyset.ahead]
  refine ⟨hlimit, ?_⟩
  rw [List.filter_congr fun r hr => Bool.eq_iff_iff.mpr ((h r hr).trans decide_eq_true_iff.symm)]

omit [LinearOrder ν] [LinearOrder τ] in
private theorem offsets_concat {batch : SnapshotBatch (ResultRow col)} {progress : Progress}
    (h : s.batches.map (·.offset) = List.range s.batches.length)
    (hbatch : batch.offset = s.batches.length) :
    (QueryStream.mk (s.batches ++ [batch]) progress).batches.map (·.offset) =
      List.range (QueryStream.mk (s.batches ++ [batch]) progress).batches.length := by
  simp [List.range_succ, h, hbatch]

private theorem Tracks.full (hpos : 0 < batchSize.toNat) (hexact : CursorExact col idCast S)
    (hrows : ∀ r ∈ rows, S r) (h : Tracks batchSize idCast S s)
    (hread : s.progress = .reading paging)
    (hpage : Keyset.page (byId col) batchSize.toNat rows s.emitted.getLast? = page)
    (hfull : ¬page.length < batchSize.toNat) :
    Tracks batchSize idCast S ⟨s.batches ++ [⟨page, paging.offset, false⟩], .reading {
      paging with
      cursor := page.getLast?.bind ResultRow.cursor
      offset := paging.offset + 1 }⟩ := by
  obtain ⟨hcast, hoffset, _⟩ := h.position paging hread
  have hlength : page.length = batchSize.toNat := by
    rw [← hpage] at hfull ⊢
    exact Keyset.length_page_of_full hfull
  have hshaped := h.shaped
  rw [Shaped, hread] at hshaped
  refine ⟨offsets_concat h.offsets hoffset, ?_, ?_⟩
  · intro batch hbatch
    cases List.mem_append.mp hbatch with
    | inl hold => exact hshaped batch hold
    | inr hnew =>
      rw [List.mem_singleton.mp hnew]
      exact ⟨hlength, rfl⟩
  · rintro next ⟨⟩
    refine ⟨hcast, by simp [hoffset], ?_⟩
    intro r hr
    have hne : page ≠ [] := by
      rintro rfl
      rw [← hlength] at hpos
      exact Nat.lt_irrefl 0 hpos
    have hlast := List.getLast?_eq_some_getLast hne
    have hpageRows : ∀ l ∈ page, l ∈ rows := by
      rw [← hpage]
      exact fun l hl => (Keyset.mem_of_mem_page hl).1
    obtain ⟨text, htext, hcut⟩ := hexact _ r (hrows _ (hpageRows _ (List.getLast_mem hne))) hr
    simp [hlast, htext, hcut, Beyond]

theorem Tracks.step (hpos : 0 < batchSize.toNat) (hexact : CursorExact col idCast S)
    (hrows : ∀ r ∈ rows, S r) (hlimit : batchSize.toNat < 2 ^ 63)
    (h : Tracks batchSize idCast S s) :
    (s.step batchSize rows).map walk = Keyset.step (byId col) batchSize.toNat s.walk rows ∧
      ∀ t, s.step batchSize rows = some t → Tracks batchSize idCast S t := by
  cases hread : s.progress with
  | complete => simp [QueryStream.step, Keyset.step, walk, isComplete, hread]
  | failed =>
    have hshaped := h.shaped
    rw [Shaped, hread] at hshaped
    exact hshaped.elim
  | reading paging =>
    obtain ⟨hcast, hoffset, hposition⟩ := h.position paging hread
    have hshaped := h.shaped
    rw [Shaped, hread] at hshaped
    have hpage : fetchPage rows paging.cursor batchSize paging.idCast =
        some (Keyset.page (byId col) batchSize.toNat rows s.emitted.getLast?) := by
      rw [hcast]
      exact fetchPage_eq_page hlimit fun r hr => hposition r (hrows r hr)
    generalize hnew : Keyset.page (byId col) batchSize.toNat rows s.emitted.getLast? = new at hpage
    by_cases hshort : new.length < batchSize.toNat
    · rw [step_of_short hread hpage hshort]
      refine ⟨?_, ?_⟩
      · simp [Keyset.step, walk, isComplete, hread, hnew, hshort]
      · rintro t ⟨⟩
        refine ⟨offsets_concat h.offsets hoffset, ⟨s.batches, _, rfl, hshaped, hshort, rfl⟩, ?_⟩
        intro next hnext
        cases hnext
    · rw [step_of_full hread hpage hshort]
      refine ⟨?_, ?_⟩
      · simp [Keyset.step, walk, isComplete, hread, hnew, hshort]
      · rintro t ⟨⟩
        exact h.full hpos hexact hrows hread hnew hshort

omit [LinearOrder ν] [LinearOrder τ] in
theorem isComplete_eq_true : s.isComplete = true ↔ s.progress = .complete := by
  cases hprogress : s.progress <;> simp [isComplete, hprogress]

theorem tracks_start (detected : List (ResultRow col)) :
    Tracks batchSize (detectIdCast (detectedType col detected)) S (start col detected) := by
  refine ⟨rfl, ?_, ?_⟩
  · intro batch hbatch
    cases hbatch
  · rintro paging ⟨⟩
    refine ⟨rfl, rfl, ?_⟩
    intro r _
    simp [passes, start, emitted, Beyond]

/-- Where cursors are exact, the stream is a keyset walk. -/
theorem tracks_run {states : List (List (ResultRow col))} (hpos : 0 < batchSize.toNat)
    (hlimit : batchSize.toNat < 2 ^ 63) (hexact : CursorExact col idCast S)
    (hstates : ∀ rows ∈ states, ∀ r ∈ rows, S r) (h : Tracks batchSize idCast S s) :
    (run (step batchSize) s states).map walk =
        run (Keyset.step (byId col) batchSize.toNat) s.walk states ∧
      ∀ t, run (step batchSize) s states = some t → Tracks batchSize idCast S t := by
  have hstep (s : QueryStream col) (rows : List (ResultRow col))
      (hs : Tracks batchSize idCast S s) (hrows : ∀ r ∈ rows, S r) :=
    hs.step hpos hexact hrows hlimit
  refine ⟨map_run (fun s rows t hs hrows => (hstep s rows hs hrows).2 t)
    (fun s rows hs hrows => (hstep s rows hs hrows).1) h hstates, ?_⟩
  intro t ht
  exact (meets_of_forall hstates).invariant
    (fun s rows t hs hrows => (hstep s rows hs hrows).2 t) h ht

theorem exists_complete {states : Nat → List (ResultRow col)} {detected : List (ResultRow col)}
    (hpos : 0 < batchSize.toNat) (hlimit : batchSize.toNat < 2 ^ 63)
    (hexact : CursorExact col (detectIdCast (detectedType col detected)) S)
    (hstates : ∀ k, ∀ r ∈ states k, S r) (bound : Nat)
    (hbound : ∀ k w, run (Keyset.step (byId col) batchSize.toNat) ⟨[], false⟩
      ((List.range k).map states) = some w → w.taken.length ≤ bound) :
    ∃ n t, run (step batchSize) (start col detected) ((List.range n).map states) = some t ∧
      run (Keyset.step (byId col) batchSize.toNat) ⟨[], false⟩ ((List.range n).map states) =
        some t.walk ∧
      t.isComplete = true ∧
      Tracks batchSize (detectIdCast (detectedType col detected)) S t := by
  obtain ⟨n, w, hwalk, hdone⟩ := Keyset.exists_done hpos states bound hbound
  have hrows : ∀ rows ∈ (List.range n).map states, ∀ r ∈ rows, S r := by
    intro rows hmem
    obtain ⟨k, _, rfl⟩ := List.mem_map.mp hmem
    exact hstates k
  obtain ⟨hmap, htracks⟩ := tracks_run hpos hlimit hexact hrows (tracks_start detected)
  rw [show (start col detected).walk = ⟨[], false⟩ from rfl, hwalk] at hmap
  obtain ⟨t, hrun, rfl⟩ := Option.map_eq_some_iff.mp hmap
  exact ⟨n, t, hrun, hwalk, hdone, htracks t hrun⟩

end

end QueryStream

end

def integerColumn {τ : Type} (typeName : String) (sortKey : String → τ) : IdColumn Int Int τ where
  typeName := typeName
  le x y := decide (x ≤ y)
  le_total x y := by simpa using le_total x y
  le_trans x y z hxy hyz := by simpa using le_trans (of_decide_eq_true hxy) (of_decide_eq_true hyz)
  toJson x := .number (.int x)
  numeric x := x
  text x := toString x
  ofText text := text.toInt?.getD 0
  sortKey := sortKey

section
variable {τ : Type} [LinearOrder τ] {typeName : String} {sortKey : String → τ}

omit [LinearOrder τ] in
theorem before_integer {l r : ResultRow (integerColumn typeName sortKey)} {x y : Int}
    (hl : l.id = some x) (hr : r.id = some y) : Before (byId _) l r ↔ x < y := by
  simp [Before, byId, hl, hr, IdColumn.idLe, integerColumn]

theorem cursorExact_integer : CursorExact (integerColumn typeName sortKey) .numeric
    (fun r => ∃ x, r.id = some x) := by
  rintro l r ⟨x, hl⟩ ⟨y, hr⟩
  refine ⟨toString x, ?_, ?_⟩
  · rw [ResultRow.cursor_eq, hl]
    rfl
  · rw [before_integer hl hr, hr]
    simp [passes, integerColumn]

structure BigintTable (sortKey : String → τ) where
  rows : List (ResultRow (integerColumn "bigint" sortKey))
  ids : ∀ r ∈ rows, ∃ x, r.id = some x ∧ -2 ^ 63 ≤ x ∧ x < 2 ^ 63
  unique : (rows.map (·.id)).Nodup

/-- The stream reads a page in each of the states `tables 0`, …, `tables (n - 1)` and has then
yielded what `s` holds: ids in increasing order, none twice, none left out that all pages could
see, batches numbered from zero and full up to a short last one; on a table that does not change,
all its rows in order. -/
structure Exact (batchSize : UInt64) (detected : BigintTable sortKey)
    (tables : Nat → BigintTable sortKey) (n : Nat)
    (s : QueryStream (integerColumn "bigint" sortKey)) : Prop where
  reads : run (QueryStream.step batchSize) (start _ detected.rows)
    ((List.range n).map fun k => (tables k).rows) = some s
  complete : s.progress = .complete
  increasing : s.emitted.Pairwise fun r t => ∃ x y, r.id = some x ∧ t.id = some y ∧ x < y
  once : ∀ x, (∀ k < n, ∃ r ∈ (tables k).rows, r.id = some x) →
    (s.emitted.map (·.id)).count (some x) = 1
  offsets : s.batches.map (·.offset) = List.range s.batches.length
  shaped : ∃ full final, s.batches = full ++ [final] ∧
    (∀ b ∈ full, b.rows.length = batchSize.toNat ∧ b.isLast = false) ∧
    final.rows.length < batchSize.toNat ∧ final.isLast = true
  unchanging : (∀ k < n, (tables k).rows = (tables 0).rows) →
    s.emitted = (tables 0).rows.insertionSort (byId _)

omit [LinearOrder τ] in
theorem BigintTable.distinct (table : BigintTable sortKey) : Distinct (byId _) table.rows := by
  have hnodup := List.pairwise_map.mp table.unique
  refine hnodup.imp_of_mem ?_
  intro r t hr ht hne hsame
  obtain ⟨x, hx, _⟩ := table.ids r hr
  obtain ⟨y, hy, _⟩ := table.ids t ht
  rw [hx, hy] at hne
  simp only [byId, hx, hy, IdColumn.idLe, integerColumn, decide_eq_true_eq] at hsame
  exact hne (congrArg some (le_antisymm hsame.1 hsame.2))

omit [LinearOrder τ] in
private theorem length_le_of_bigint {rows : List (ResultRow (integerColumn "bigint" sortKey))}
    (hids : ∀ r ∈ rows, ∃ x, r.id = some x ∧ -2 ^ 63 ≤ x ∧ x < 2 ^ 63)
    (hbefore : rows.Pairwise (Before (byId _))) : rows.length ≤ 2 ^ 64 := by
  have hnodup : (rows.map fun r => r.id.getD 0).Nodup := by
    refine List.pairwise_map.mpr (hbefore.imp_of_mem ?_)
    intro r t hr ht hlt heq
    obtain ⟨x, hx, _⟩ := hids r hr
    obtain ⟨y, hy, _⟩ := hids t ht
    rw [before_integer hx hy] at hlt
    simp only [hx, hy, Option.getD_some] at heq
    exact absurd heq (ne_of_lt hlt)
  have hsub : (rows.map fun r => r.id.getD 0).toFinset ⊆ Finset.Ico (-2 ^ 63) (2 ^ 63) := by
    intro x hx
    obtain ⟨r, hr, rfl⟩ := List.mem_map.mp (List.mem_toFinset.mp hx)
    obtain ⟨y, hy, hlow, hhigh⟩ := hids r hr
    simp only [hy, Option.getD_some, Finset.mem_Ico]
    exact ⟨hlow, hhigh⟩
  have hcard := Finset.card_le_card hsub
  rw [List.toFinset_card_of_nodup hnodup, List.length_map, Int.card_Ico] at hcard
  simpa using hcard

omit [LinearOrder τ] in
private theorem hasId (table : BigintTable sortKey) : ∀ r ∈ table.rows, ∃ x, r.id = some x := by
  intro r hr
  obtain ⟨x, hx, _⟩ := table.ids r hr
  exact ⟨x, hx⟩

/-- What a finished walk over the states says about the stream. -/
private theorem exact_of_walk {batchSize : UInt64} (hpos : 0 < batchSize.toNat)
    {detected : BigintTable sortKey} {tables : Nat → BigintTable sortKey} {n : Nat}
    {s : QueryStream (integerColumn "bigint" sortKey)}
    (hreads : run (QueryStream.step batchSize) (start _ detected.rows)
      ((List.range n).map fun k => (tables k).rows) = some s)
    (hwalk : run (Keyset.step (byId _) batchSize.toNat) ⟨[], false⟩
      ((List.range n).map fun k => (tables k).rows) = some s.walk)
    (hdone : s.isComplete = true)
    (htracks : s.Tracks batchSize .numeric (fun r => ∃ x, r.id = some x)) :
    Exact batchSize detected tables n s := by
  have hstates {P : List (ResultRow (integerColumn "bigint" sortKey)) → Prop}
      (h : ∀ k < n, P (tables k).rows) :
      ∀ rows ∈ (List.range n).map fun k => (tables k).rows, P rows := by
    intro rows hrows
    obtain ⟨k, hk, rfl⟩ := List.mem_map.mp hrows
    exact h k (List.mem_range.mp hk)
  have hbefore : s.emitted.Pairwise (Before (byId _)) :=
    Keyset.pairwise_before_taken (hstates fun k _ => (tables k).distinct) hwalk
  have hids : ∀ r ∈ s.emitted, ∃ x, r.id = some x :=
    Keyset.forall_taken (hstates fun k _ => hasId (tables k)) hwalk
  have hincreasing : s.emitted.Pairwise
      fun r t => ∃ x y, r.id = some x ∧ t.id = some y ∧ x < y := by
    refine hbefore.imp_of_mem ?_
    intro r t hr ht hlt
    obtain ⟨x, hx⟩ := hids r hr
    obtain ⟨y, hy⟩ := hids t ht
    exact ⟨x, y, hx, hy, (before_integer hx hy).mp hlt⟩
  have hcomplete := QueryStream.isComplete_eq_true.mp hdone
  refine ⟨hreads, hcomplete, hincreasing, ?_, htracks.offsets, ?_, ?_⟩
  · intro x hx
    have hnodup : (s.emitted.map (·.id)).Nodup := by
      refine List.pairwise_map.mpr (hincreasing.imp ?_)
      rintro r t ⟨x, y, hr, ht, hlt⟩ heq
      rw [hr, ht, Option.some.injEq] at heq
      exact absurd heq (ne_of_lt hlt)
    obtain ⟨r, hr, hrx⟩ := Keyset.exists_taken (Q := fun r => r.id = some x) hpos
      (by
        intro r t hr ht
        simp [byId, hr, ht, IdColumn.idLe, integerColumn])
      (hstates fun k hk => ⟨(tables k).distinct, hx k hk⟩) hwalk hdone
    refine List.count_eq_one_of_mem hnodup ?_
    rw [← hrx]
    exact List.mem_map_of_mem hr
  · have hshaped := htracks.shaped
    rwa [QueryStream.Shaped, hcomplete] at hshaped
  · intro hsame
    have hreplicate : ((List.range n).map fun k => (tables k).rows) =
        List.replicate n (tables 0).rows := by
      refine List.eq_replicate_iff.mpr ⟨by simp, hstates hsame⟩
    rw [hreplicate] at hwalk
    exact Keyset.taken_eq_insertionSort hpos (tables 0).distinct hwalk hdone

private theorem exact_of_lt {batchSize : UInt64} (hpos : 0 < batchSize)
    (hlimit : batchSize.toNat < 2 ^ 63) {detected : BigintTable sortKey}
    (hdetected : detected.rows ≠ []) (tables : Nat → BigintTable sortKey) :
    ∃ n s, Exact batchSize detected tables n s := by
  have hpos' : 0 < batchSize.toNat := UInt64.lt_iff_toNat_lt.mp hpos
  have hcast : detectIdCast (detectedType _ detected.rows) = .numeric := by
    rw [detectedType_of_ne_nil hdetected]
    change detectIdCast (some "bigint") = .numeric
    decide
  have hexact : CursorExact (integerColumn "bigint" sortKey)
      (detectIdCast (detectedType _ detected.rows)) fun r => ∃ x, r.id = some x := by
    rw [hcast]
    exact cursorExact_integer
  have hbound (k : Nat) (w : Walk (ResultRow (integerColumn "bigint" sortKey)))
      (hw : run (Keyset.step (byId _) batchSize.toNat) ⟨[], false⟩
        ((List.range k).map fun k => (tables k).rows) = some w) : w.taken.length ≤ 2 ^ 64 := by
    refine length_le_of_bigint (Keyset.forall_taken ?_ hw) (Keyset.pairwise_before_taken ?_ hw)
    · intro rows hrows
      obtain ⟨k, _, rfl⟩ := List.mem_map.mp hrows
      exact (tables k).ids
    · intro rows hrows
      obtain ⟨k, _, rfl⟩ := List.mem_map.mp hrows
      exact (tables k).distinct
  obtain ⟨n, s, hreads, hwalk, hdone, htracks⟩ :=
    QueryStream.exists_complete hpos' hlimit hexact (fun k => hasId (tables k)) _ hbound
  rw [hcast] at htracks
  exact ⟨n, s, exact_of_walk hpos' hreads hwalk hdone htracks⟩

def idRows (typeName : String) (sortKey : String → τ) (ids : List Int) :
    List (ResultRow (integerColumn typeName sortKey)) :=
  ids.map fun x => ⟨some x, .object [("id", .number (.int x))], rfl⟩

omit [LinearOrder τ] in
theorem map_id_idRows (ids : List Int) :
    (idRows typeName sortKey ids).map (·.id) = ids.map some := by
  simp [idRows]

def BigintTable.ofIds (sortKey : String → τ) (ids : List Int) (hnodup : ids.Nodup)
    (hfits : ∀ x ∈ ids, -2 ^ 63 ≤ x ∧ x < 2 ^ 63) : BigintTable sortKey where
  rows := idRows "bigint" sortKey ids
  ids := by
    intro r hr
    obtain ⟨x, hx, rfl⟩ := List.mem_map.mp hr
    exact ⟨x, rfl, hfits x hx⟩
  unique := by
    rw [map_id_idRows]
    exact hnodup.map (Option.some_injective _)

def cCollation (text : String) : String := text

/-- The page query of a batch size that is negative as an `i64` fails. -/
theorem stream_fails_on_large_batch_size :
    run (QueryStream.step 0x8000000000000000) (start _ (idRows "bigint" cCollation [1]))
      [idRows "bigint" cCollation [1]] = some ⟨[], .failed⟩ := by
  rw [run_cons, QueryStream.step_of_refused rfl (by decide)]
  rfl

/-- Whatever happens to the table between the pages, a stream with a batch size of at least one is
exact, if the batch size fits in an `i64`. -/
theorem stream_exact_iff (sortKey : String → τ) (batchSize : UInt64) (hpos : 0 < batchSize) :
    (∀ (detected : BigintTable sortKey) (tables : Nat → BigintTable sortKey),
      detected.rows ≠ [] → ∃ n s, Exact batchSize detected tables n s) ↔
    batchSize.toNat < 2 ^ 63 := by
  constructor
  · intro h
    by_contra hlarge
    let table := BigintTable.ofIds sortKey [1] (by simp) (by simp)
    obtain ⟨n, s, hexact⟩ := h table (fun _ => table) (by simp [table, BigintTable.ofIds, idRows])
    exact QueryStream.not_complete_of_refused (not_lt.mp hlarge) (by simp [start]) hexact.reads
      hexact.complete
  · intro hlimit detected tables hdetected
    exact exact_of_lt hpos hlimit hdetected tables

/-- The table has the ids 3, 5 and 9 or 10, by turns. -/
private def changingTable (k : Nat) : BigintTable cCollation :=
  .ofIds cCollation [5, 3, 9 + (k % 2 : Nat)] (by simp; omega) (by simp; omega)

theorem stream_exact_changing_table : ∃ n s, Exact 2 (changingTable 0) changingTable n s :=
  (stream_exact_iff cCollation 2 (by decide)).mpr (by decide) _ _
    (by simp [changingTable, BigintTable.ofIds, idRows])

def IdRow.toResultRow (sortKey : String → τ) (r : IdRow) :
    ResultRow (integerColumn "bigint" sortKey) := ⟨some r.id, r.data, r.idField⟩

def Table.resultRows (sortKey : String → τ) (table : Table) :
    List (ResultRow (integerColumn "bigint" sortKey)) :=
  table.rows.toList.map fun e => e.2.toResultRow sortKey

def collates (sortKey : String → τ) (x y : String) : Bool := decide (sortKey y < sortKey x)

private theorem passes_eq_afterCursor {idCast : IdCast} {cursor : Option String}
    (hcursor : ∀ text ∈ cursor, text.toInt?.isSome) (id : Int) :
    passes (integerColumn "bigint" sortKey) idCast cursor (some id) =
      Table.afterCursor (collates sortKey) idCast cursor id := by
  cases cursor with
  | none => rfl
  | some text =>
    obtain ⟨last, hlast⟩ := Option.isSome_iff_exists.mp (hcursor text rfl)
    cases idCast with
    | numeric => simp [passes, Table.afterCursor, integerColumn, hlast]
    | text => simp [passes, Table.afterCursor, integerColumn, collates]

theorem fetchPage_resultRows (table : Table) {cursor : Option String} {limit : UInt64}
    {idCast : IdCast} (hlimit : limit.toNat < 2 ^ 63)
    (hcursor : ∀ text ∈ cursor, text.toInt?.isSome) :
    fetchPage (table.resultRows sortKey) cursor limit idCast =
      some ((table.fetchPage (collates sortKey) cursor limit.toNat idCast).map
        (·.toResultRow sortKey)) := by
  have hkey (e : Int × IdRow) (he : e ∈ table.rows.toList) : e.2.id = e.1 :=
    table.keyed e.1 e.2 (Std.TreeMap.mem_toList_iff_getElem?_eq_some.mp he)
  have hfilter : (table.resultRows sortKey).filter
      (fun r => passes (integerColumn "bigint" sortKey) idCast cursor r.id) =
      (table.rows.toList.filter fun e =>
        Table.afterCursor (collates sortKey) idCast cursor e.1).map
          fun e => e.2.toResultRow sortKey := by
    rw [Table.resultRows, List.filter_map]
    congr 1
    refine List.filter_congr ?_
    intro e he
    rw [Function.comp_apply, ← hkey e he]
    exact passes_eq_afterCursor hcursor e.2.id
  have hsorted : ((table.rows.toList.filter fun e =>
      Table.afterCursor (collates sortKey) idCast cursor e.1).map
        fun e => e.2.toResultRow sortKey).Pairwise (byId _) := by
    refine List.pairwise_map.mpr
      (((OrderedScan.ordered_toList table.rows).filter _).imp_of_mem ?_)
    intro a b ha hb hlt
    have hids : a.2.id < b.2.id := by
      rw [hkey a (List.mem_of_mem_filter ha), hkey b (List.mem_of_mem_filter hb)]
      exact Std.compare_eq_lt.mp hlt
    simp [byId, IdRow.toResultRow, IdColumn.idLe, integerColumn, hids.le]
  rw [fetchPage_eq_some]
  refine ⟨hlimit, ?_⟩
  rw [hfilter, hsorted.insertionSort_eq, Table.fetchPage, List.map_take, List.map_take,
    List.map_map]
  rfl

/-- On a `bigint` table the paging loop is the one of `Table.nextBatch`. -/
theorem readPage_resultRows (table : Table) {batchSize : UInt64} {paging : Paging}
    (hlimit : batchSize.toNat < 2 ^ 63)
    (hcursor : ∀ text ∈ paging.cursor, text.toInt?.isSome) :
    readPage batchSize (table.resultRows sortKey) paging =
      let next := table.nextBatch (collates sortKey) batchSize.toNat paging
      some (⟨next.1.rows.map (·.toResultRow sortKey), next.1.offset, next.1.isLast⟩, next.2) := by
  have hlast (rows : List IdRow) : (rows.map (·.toResultRow sortKey)).getLast?.bind
      ResultRow.cursor = nextCursor rows := by
    cases h : rows.getLast? with
    | none => simp [nextCursor, h]
    | some r => simp [nextCursor, h, ResultRow.cursor, IdRow.toResultRow]
  rw [readPage, fetchPage_resultRows table hlimit hcursor]
  simp only [Option.map_some, List.length_map, hlast, Table.nextBatch]

end

end EntitySync.Snapshot
