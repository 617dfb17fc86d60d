import EntitySync.Core.Types
import EntitySync.Library.OrderedScan
import Mathlib

/-!
# Keyset-paginated snapshots

`SnapshotStream` over one data query with a `bigint` id column. Every page is a query of its own
that sees the table as it then is. A page lists the rows after the cursor in the order of their
ids, and the cursor is the text of the last id of the previous page.
-/

namespace EntitySync.Snapshot

open Json (Value)
open Std (TreeMap)

def defaultBatchSize : Nat := 10000

structure IdRow where
  id : Int
  data : Value
  idField : data.get "id" = some (.number (.int id))

structure Table where
  rows : TreeMap Int IdRow
  keyed : ∀ (id : Int) (r : IdRow), rows[id]? = some r → r.id = id

def rowIdAsString (id : Value) : Option String := id.scalarText

inductive IdCast where
  | numeric
  | text
deriving DecidableEq

/-- `detect_id_cast`, given the type name that the query for it returned. -/
def detectIdCast : Option String → IdCast
  | none => .text
  | some typeName =>
    if typeName ∈ ["smallint", "integer", "bigint", "numeric", "real", "double precision"] then
      .numeric
    else .text

namespace Table

def idType (table : Table) : Option String := table.rows.toList.head?.map fun _ => "bigint"

section
variable (collates : String → String → Bool)

/-- The page query's `WHERE` clause; `collates` is the database's `>` on text. -/
def afterCursor (idCast : IdCast) (cursor : Option String) (id : Int) : Bool :=
  match cursor, idCast with
  | none, _ => true
  | some cursor, .numeric => cursor.toInt?.any fun last => last < id
  | some cursor, .text => collates (toString id) cursor

def fetchPage (table : Table) (cursor : Option String) (limit : Nat) (idCast : IdCast) :
    List IdRow :=
  ((table.rows.toList.filter fun e => afterCursor collates idCast cursor e.1).take limit).map
    Prod.snd

end

end Table

def nextCursor (page : List IdRow) : Option String :=
  (page.getLast?.bind fun r => r.data.get "id").bind rowIdAsString

structure Paging where
  idCast : IdCast
  cursor : Option String
  offset : Nat
deriving DecidableEq

/-- One yielded `SnapshotBatch`; its bucket and table do not change within a stream. -/
structure Batch where
  rows : List IdRow
  offset : Nat
  isLast : Bool

/-- One iteration of the paging loop, and where the next one starts. -/
def Table.nextBatch (collates : String → String → Bool) (batchSize : Nat) (table : Table)
    (paging : Paging) : Batch × Option Paging :=
  let rows := table.fetchPage collates paging.cursor batchSize paging.idCast
  let isLast := decide (rows.length < batchSize)
  (⟨rows, paging.offset, isLast⟩,
    if isLast then none
    else some { paging with cursor := nextCursor rows, offset := paging.offset + 1 })

/-- The stream will not come to this id any more; without a next page it is done. -/
def Passed (collates : String → String → Bool) (next : Option Paging) (id : Int) : Prop :=
  ∀ paging ∈ next, Table.afterCursor collates paging.idCast paging.cursor id = false

namespace Table

theorem nextCursor_eq {page : List IdRow} {last : IdRow} (h : page.getLast? = some last) :
    nextCursor page = some (toString last.id) := by
  simp only [nextCursor, h, Option.bind_some, last.idField]
  rfl

theorem afterCursor_numeric (collates : String → String → Bool) (last id : Int) :
    afterCursor collates .numeric (some (toString last)) id = decide (last < id) := by
  simp [afterCursor]

variable {collates : String → String → Bool} {table : Table} {cursor : Option String}
  {limit : Nat} {idCast : IdCast} {r : IdRow}

theorem idType_of_mem {id : Int} (h : table.rows[id]? = some r) : table.idType = some "bigint" := by
  have hmem := TreeMap.mem_toList_iff_getElem?_eq_some.mpr h
  rw [idType]
  cases hlist : table.rows.toList with
  | nil =>
    rw [hlist] at hmem
    cases hmem
  | cons e es => rfl

private theorem mem_candidates (h : table.rows[r.id]? = some r)
    (hafter : afterCursor collates idCast cursor r.id = true) :
    (r.id, r) ∈ table.rows.toList.filter fun e => afterCursor collates idCast cursor e.1 :=
  List.mem_filter.mpr ⟨TreeMap.mem_toList_iff_getElem?_eq_some.mpr h, hafter⟩

theorem rows_of_mem_fetchPage (h : r ∈ table.fetchPage collates cursor limit idCast) :
    table.rows[r.id]? = some r := by
  obtain ⟨e, he, hr⟩ := List.mem_map.mp h
  have hget : table.rows[e.1]? = some e.2 := TreeMap.mem_toList_iff_getElem?_eq_some.mp
    (List.mem_filter.mp (List.mem_of_mem_take he)).1
  rw [← hr, table.keyed e.1 e.2 hget]
  exact hget

private theorem mem_fetchPage_of_short
    (hshort : (table.fetchPage collates cursor limit idCast).length < limit)
    (h : table.rows[r.id]? = some r) (hafter : afterCursor collates idCast cursor r.id = true) :
    r ∈ table.fetchPage collates cursor limit idCast := by
  rw [fetchPage, List.length_map, List.length_take] at hshort
  rw [fetchPage, List.take_of_length_le (by omega)]
  exact List.mem_map_of_mem (mem_candidates h hafter)

private theorem mem_fetchPage_of_le {last : IdRow}
    (hlast : (table.fetchPage collates cursor limit idCast).getLast? = some last)
    (h : table.rows[r.id]? = some r) (hafter : afterCursor collates idCast cursor r.id = true)
    (hle : r.id ≤ last.id) : r ∈ table.fetchPage collates cursor limit idCast := by
  obtain ⟨e, he, hsnd⟩ := List.mem_map.mp (List.mem_of_getLast? hlast)
  have hkey : last.id = e.1 := hsnd ▸ table.keyed e.1 e.2
    (TreeMap.mem_toList_iff_getElem?_eq_some.mp (List.mem_filter.mp (List.mem_of_mem_take he)).1)
  have hordered := (OrderedScan.ordered_toList table.rows).filter
    fun e => afterCursor collates idCast cursor e.1
  have hmem := OrderedScan.Ordered.mem_take hordered (mem_candidates h hafter) he (by
    rw [ne_eq, Std.compare_eq_lt, ← hkey]
    omega)
  exact List.mem_map_of_mem hmem

variable {batchSize : Nat} {paging : Paging}

theorem nextBatch_idCast {next : Paging}
    (h : (table.nextBatch collates batchSize paging).2 = some next) :
    next.idCast = paging.idCast := by
  simp only [nextBatch] at h
  split at h
  · cases h
  · cases h
    rfl

/-- On a numeric cursor the stream passes no row without showing it. -/
theorem mem_nextBatch (hpos : 0 < batchSize) (hcast : paging.idCast = .numeric)
    (h : table.rows[r.id]? = some r) (hbefore : ¬Passed collates (some paging) r.id)
    (hpassed : Passed collates (table.nextBatch collates batchSize paging).2 r.id) :
    r ∈ (table.nextBatch collates batchSize paging).1.rows := by
  have hafter : afterCursor collates paging.idCast paging.cursor r.id = true := by
    simpa [Passed] using hbefore
  simp only [nextBatch] at hpassed ⊢
  by_cases hshort :
      (table.fetchPage collates paging.cursor batchSize paging.idCast).length < batchSize
  · exact mem_fetchPage_of_short hshort h hafter
  · cases hlast : (table.fetchPage collates paging.cursor batchSize paging.idCast).getLast? with
    | none =>
      rw [List.getLast?_eq_none_iff] at hlast
      simp [hlast, hpos] at hshort
    | some last =>
      apply mem_fetchPage_of_le hlast h hafter
      -- the next cursor is the id of the page's last row
      have hcursor := hpassed _ (by simp only [hshort, decide_false]; rfl)
      simp only [nextCursor_eq hlast] at hcursor
      rw [hcast, afterCursor_numeric, decide_eq_false_iff_not] at hcursor
      omega

end Table

end EntitySync.Snapshot
