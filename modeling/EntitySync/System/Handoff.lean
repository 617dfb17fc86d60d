import EntitySync.Gateway.ExactlyOnce
import EntitySync.Snapshot.Stream
import EntitySync.System.Replica

/-!
# From the snapshot to the deltas

One client and one bucket with a single data query. While the pages of the snapshot are read, rows
change and the router follows with some lag; once the snapshot is sent, the session is served from
the start of the log. A row that no logged change touches stays as it was from the first page to
the last, so some page shows it; every other row ends as the last logged change leaves it. A run
starts at the moment from which on all changes of the bucket's rows reach the log.
-/

namespace EntitySync.System

open Gateway (Delivery authorize)
open Gateway.Delivery (Exact owed WellKeyed)
open Json (Value)
open Oplog (Partitions)
open Snapshot
open StepSystem

/-- A subscription that is authorized for one bucket, which has one data query. -/
structure Subscription where
  assignments : List BucketAssignment
  requested : List String
  bucket : BucketId
  single : (authorize assignments requested).keys = [bucket]
  entityType : String
  dataQuery : ∀ a, (authorize assignments requested).lookup bucket = some a →
    a.dataQueries.keys = [entityType]

/-- A change of a row of the bucket; an update that makes the data query drop the row is a
deletion. -/
inductive RowChange where
  | put (row : IdRow)
  | delete (id : Int)

namespace RowChange

def write : RowChange → Int × Option IdRow
  | .put row => (row.id, some row)
  | .delete id => (id, none)

def apply (table : Table) : RowChange → Table
  | .put row => {
      rows := table.rows.insert row.id row
      keyed := by
        intro id r h
        rw [Std.TreeMap.getElem?_insert] at h
        split at h
        next heq =>
          cases h
          exact Std.LawfulEqOrd.eq_of_compare heq
        next => exact table.keyed id r h }
  | .delete id => {
      rows := table.rows.erase id
      keyed := by
        intro id' r h
        rw [Std.TreeMap.getElem?_erase] at h
        split at h
        next => cases h
        next => exact table.keyed id' r h }

theorem rows_apply (table : Table) (change : RowChange) :
    (fun id => (change.apply table).rows[id]?) =
      Function.update (fun id => table.rows[id]?) change.write.1 change.write.2 := by
  funext id
  by_cases hid : id = change.write.1
  · subst hid
    cases change <;> simp [apply, write]
  · have hne : compare change.write.1 id ≠ .eq := fun heq =>
      hid (Std.LawfulEqOrd.eq_of_compare heq).symm
    rw [Function.update_of_ne hid]
    cases change with
    | put row => exact Std.TreeMap.getElem?_insert.trans (if_neg hne)
    | delete id' => exact Std.TreeMap.getElem?_erase.trans (if_neg hne)

end RowChange

inductive Phase where
  | offline
  | detecting
  /-- Without a next page the snapshot is complete and the session is served. -/
  | streaming (next : Option Paging)
deriving DecidableEq

structure Handoff where
  table : Table
  /-- The committed changes that the router has not appended yet, in commit order. -/
  pending : List RowChange
  /-- The changes that the router has appended. -/
  routed : List RowChange
  delivery : Delivery
  phase : Phase
  batches : List Batch

inductive HandoffAction where
  | commit (change : RowChange)
  | route (wall : UInt64) (lsn : PgLsn)
  | subscribe
  | detect
  | page
  | startPoll (order : List BucketId)
  | scan
  | receive (msg : ClientMessage)

namespace Handoff

section
variable (sub : Subscription) (collates : String → String → Bool)

def changeOp (lsn : PgLsn) (change : RowChange) : BucketOp where
  lsn := lsn
  bucketId := sub.bucket
  entityType := sub.entityType
  entityId := toString change.write.1
  op := match change.write.2 with
    | some row => .upsert row.data
    | none => .delete

def init (table : Table) : Handoff where
  table := table
  pending := []
  routed := []
  delivery := ⟨Partitions.empty, ⟨∅, ∅⟩, [], []⟩
  phase := .offline
  batches := []

def serve (s : Handoff) (a : Gateway.DeliveryAction) : Option Handoff :=
  if s.phase = .streaming none then
    (s.delivery.step a).map fun delivery => { s with delivery := delivery }
  else none

def step (s : Handoff) : HandoffAction → Option Handoff
  | .commit change =>
    some { s with table := change.apply s.table, pending := s.pending ++ [change] }
  | .route wall lsn =>
    match s.pending with
    | [] => none
    | change :: rest =>
      some { s with
        pending := rest
        routed := s.routed ++ [change]
        delivery := { s.delivery with
          log := s.delivery.log.append wall sub.bucket lsn (changeOp sub lsn change) } }
  | .subscribe =>
    if s.phase = .offline then
      some { s with
        delivery := .start s.delivery.log sub.assignments sub.requested none
        phase := .detecting }
    else none
  | .detect =>
    if s.phase = .detecting then
      some { s with phase := .streaming (some ⟨detectIdCast s.table.idType, none, 0⟩) }
    else none
  | .page =>
    match s.phase with
    | .streaming (some paging) =>
      let result := s.table.nextBatch collates defaultBatchSize paging
      some { s with batches := s.batches ++ [result.1], phase := .streaming result.2 }
    | _ => none
  | .startPoll order => s.serve (.startPoll order)
  | .scan => s.serve .scan
  | .receive msg => s.serve (.receive msg)

/-- The router appends in increasing LSN order, below the `u64::MAX` that no LSN reaches, and the
client acknowledges only LSNs of Deltas it was sent. -/
def Orderly (s : Handoff) : HandoffAction → Prop
  | .route _ lsn => lsn < PgLsn.max ∧ ∀ e ∈ (s.delivery.log sub.bucket).toList, e.1 < lsn
  | .receive msg => s.delivery.Faithful (.receive msg)
  | _ => True

instance (s : Handoff) (a : HandoffAction) : Decidable (s.Orderly sub a) :=
  match a with
  | .route _ _ => inferInstanceAs (Decidable (_ ∧ _))
  | .receive msg => inferInstanceAs (Decidable (s.delivery.Faithful (.receive msg)))
  | .commit _ | .subscribe | .detect | .page | .startPoll _ | .scan =>
    inferInstanceAs (Decidable True)

def rowWrite (row : Value) : Option (RowKey × Option Value) :=
  ((row.get "id").bind rowIdAsString).map fun id => ((sub.entityType, id), some row)

def shownRows (s : Handoff) : List IdRow := s.batches.flatMap Batch.rows

def clientRows (s : Handoff) : RowKey → Option Value :=
  Replay.replay (fun _ => none)
    (s.shownRows.filterMap (fun r => rowWrite sub r.data) ++
      (s.delivery.sentOps sub.bucket).filterMap opWrite)

/-- All changes are routed, and the session has scanned all of the log. -/
def CaughtUp (s : Handoff) : Prop :=
  s.phase = .streaming none ∧ s.pending = [] ∧
    ∀ e ∈ (s.delivery.log sub.bucket).toList,
      ∃ m, s.delivery.session.lastSeenLsn.lookup sub.bucket = some m ∧ e.1 ≤ m

def Converged (s : Handoff) : Prop :=
  ∀ key row, s.clientRows sub key = some row ↔
    ∃ r : IdRow, s.table.rows[r.id]? = some r ∧ key = (sub.entityType, toString r.id) ∧ row = r.data

def clientWrite (w : Int × Option IdRow) : RowKey × Option Value :=
  ((sub.entityType, toString w.1), w.2.map IdRow.data)

def Untouched (s : Handoff) (id : Int) : Prop :=
  ∀ change ∈ s.routed ++ s.pending, change.write.1 ≠ id

/-- `start` is the table at the beginning of the run. -/
structure Sound (start : Table) (s : Handoff) : Prop where
  table : (fun id => s.table.rows[id]?) =
    Replay.replay (fun id => start.rows[id]?) ((s.routed ++ s.pending).map RowChange.write)
  keyed : WellKeyed s.delivery.log
  log : ((s.delivery.log sub.bucket).toList.filterMap fun e => opWrite e.2.op) =
    s.routed.map fun change => clientWrite sub change.write
  exact : s.phase ≠ .offline → Exact sub.bucket none s.delivery
  shown : ∀ r ∈ s.shownRows, s.Untouched r.id → start.rows[r.id]? = some r
  reached : ∀ next, s.phase = .streaming next → ∀ r : IdRow, start.rows[r.id]? = some r →
    s.Untouched r.id →
      (∀ paging ∈ next, paging.idCast = .numeric) ∧ (Passed collates next r.id → r ∈ s.shownRows)

variable {sub collates} {start : Table} {s : Handoff}

@[simp] theorem rowWrite_data (r : IdRow) :
    rowWrite sub r.data = some (clientWrite sub (r.id, some r)) := by
  simp [rowWrite, r.idField, rowIdAsString, Value.scalarText, Json.Number.toText, clientWrite]

@[simp] theorem opWrite_changeOp (lsn : PgLsn) (change : RowChange) :
    opWrite (changeOp sub lsn change) = some (clientWrite sub change.write) := by
  cases change <;> rfl

theorem sound_init (start : Table) : Sound sub collates start (init start) := by
  constructor
  · rfl
  · exact Partitions.keyedBy_empty
  · simp [init, Partitions.empty]
  · intro h
    exact absurd rfl h
  · intro r hr
    cases hr
  · intro next h
    cases h

theorem Sound.rows_of_untouched (h : Sound sub collates start s) {id : Int}
    (huntouched : s.Untouched id) : s.table.rows[id]? = start.rows[id]? := by
  have hrow := congrFun h.table id
  rw [Replay.replay_eq_of_forall (v := start.rows[id]?) ?_ (Or.inl rfl)] at hrow
  · exact hrow
  · intro w hw hid
    obtain ⟨change, hchange, rfl⟩ := List.mem_map.mp hw
    exact absurd hid (huntouched change hchange)

theorem Sound.commit (h : Sound sub collates start s) (change : RowChange) :
    Sound sub collates start
      { s with table := change.apply s.table, pending := s.pending ++ [change] } := by
  have hless {id : Int} (huntouched : Untouched { s with pending := s.pending ++ [change] } id) :
      s.Untouched id := by
    intro c hc
    apply huntouched
    simp only [← List.append_assoc]
    exact List.mem_append_left _ hc
  refine ⟨?_, h.keyed, h.log, h.exact, ?_, ?_⟩
  · simp only [RowChange.rows_apply, ← List.append_assoc, List.map_append, List.map_singleton,
      Replay.replay_concat]
    rw [h.table, List.map_append]
  · intro r hr huntouched
    exact h.shown r hr (hless huntouched)
  · intro next hphase r hstart huntouched
    exact h.reached next hphase r hstart (hless huntouched)

theorem Sound.route (h : Sound sub collates start s) (wall : UInt64) {lsn : PgLsn}
    {change : RowChange} {rest : List RowChange} (hpending : s.pending = change :: rest)
    (horderly : s.Orderly sub (.route wall lsn)) :
    Sound sub collates start { s with
      pending := rest
      routed := s.routed ++ [change]
      delivery := { s.delivery with
        log := s.delivery.log.append wall sub.bucket lsn (changeOp sub lsn change) } } := by
  have hsplit : s.routed ++ [change] ++ rest = s.routed ++ s.pending := by simp [hpending]
  refine ⟨?_, ?_, ?_, ?_, ?_, ?_⟩
  · rw [hsplit]
    exact h.table
  · exact h.keyed.append wall sub.bucket
      (show (changeOp sub lsn change).lsn < PgLsn.max from horderly.1)
  · simp [Partitions.toList_append_last horderly.2, h.log]
  · intro hphase
    exact (h.exact hphase).step (a := .append wall sub.bucket (changeOp sub lsn change))
      horderly rfl
  · intro r hr huntouched
    rw [Untouched, hsplit] at huntouched
    exact h.shown r hr huntouched
  · intro next hphase r hstart huntouched
    rw [Untouched, hsplit] at huntouched
    exact h.reached next hphase r hstart huntouched

theorem Sound.subscribe (h : Sound sub collates start s) :
    Sound sub collates start { s with
      delivery := .start s.delivery.log sub.assignments sub.requested none
      phase := .detecting } := by
  refine ⟨h.table, h.keyed, h.log, ?_, h.shown, ?_⟩
  · intro _
    exact Gateway.Delivery.exact_start h.keyed _ _ (by simp) sub.single
  · intro next hphase
    cases hphase

theorem Sound.detect (h : Sound sub collates start s) (hphase : s.phase = .detecting) :
    Sound sub collates start
      { s with phase := .streaming (some ⟨detectIdCast s.table.idType, none, 0⟩) } := by
  refine ⟨h.table, h.keyed, h.log, fun _ => h.exact (by simp [hphase]), h.shown, ?_⟩
  intro next hnext r hstart huntouched
  cases hnext
  have hrow : s.table.rows[r.id]? = some r := (h.rows_of_untouched huntouched).trans hstart
  constructor
  · simp [Table.idType_of_mem hrow, detectIdCast]
  · intro hpassed
    cases hpassed _ rfl

theorem Sound.page (h : Sound sub collates start s) {paging : Paging}
    (hphase : s.phase = .streaming (some paging)) :
    Sound sub collates start { s with
      batches := s.batches ++ [(s.table.nextBatch collates defaultBatchSize paging).1]
      phase := .streaming (s.table.nextBatch collates defaultBatchSize paging).2 } := by
  have hrows (r : IdRow) :
      r ∈ (s.batches ++ [(s.table.nextBatch collates defaultBatchSize paging).1]).flatMap
          Batch.rows ↔
        r ∈ s.shownRows ∨ r ∈ (s.table.nextBatch collates defaultBatchSize paging).1.rows := by
    simp [shownRows]
  refine ⟨h.table, h.keyed, h.log, fun _ => h.exact (by simp [hphase]), ?_, ?_⟩
  · intro r hr huntouched
    cases (hrows r).mp hr with
    | inl hold => exact h.shown r hold huntouched
    | inr hnew =>
      rw [← h.rows_of_untouched huntouched]
      exact Table.rows_of_mem_fetchPage hnew
  · intro next hnext r hstart huntouched
    cases hnext
    have hrow : s.table.rows[r.id]? = some r := (h.rows_of_untouched huntouched).trans hstart
    have hbefore := h.reached _ hphase r hstart huntouched
    have hcast : paging.idCast = .numeric := hbefore.1 paging rfl
    constructor
    · intro next hnext
      rw [Table.nextBatch_idCast hnext, hcast]
    · intro hpassed
      apply (hrows r).mpr
      by_cases hold : Passed collates (some paging) r.id
      · exact Or.inl (hbefore.2 hold)
      · exact Or.inr (Table.mem_nextBatch (by decide) hcast hrow hold hpassed)

theorem Sound.serve {t : Handoff} {a : Gateway.DeliveryAction} (h : Sound sub collates start s)
    (ha : s.delivery.Faithful a)
    (hkeeps : ∀ d, s.delivery.step a = some d → d.log = s.delivery.log)
    (hserve : s.serve a = some t) : Sound sub collates start t := by
  rw [Handoff.serve] at hserve
  split at hserve
  next hphase =>
    obtain ⟨d, hd, rfl⟩ := Option.map_eq_some_iff.mp hserve
    have hlog := hkeeps d hd
    have hexact := (h.exact (by simp [hphase])).step ha hd
    refine ⟨h.table, hexact.tracked.keyed, ?_, fun _ => hexact, h.shown, h.reached⟩
    simpa [hlog] using h.log
  next => cases hserve

theorem Sound.step {t : Handoff} {a : HandoffAction} (h : Sound sub collates start s)
    (ha : s.Orderly sub a) (hstep : s.step sub collates a = some t) :
    Sound sub collates start t := by
  cases a with
  | commit change =>
    cases hstep
    exact h.commit change
  | route wall lsn =>
    rw [Handoff.step] at hstep
    split at hstep
    · cases hstep
    next change rest hpending =>
      cases hstep
      exact h.route wall hpending ha
  | subscribe =>
    rw [Handoff.step] at hstep
    split at hstep
    · cases hstep
      exact h.subscribe
    · cases hstep
  | detect =>
    rw [Handoff.step] at hstep
    split at hstep
    next hphase =>
      cases hstep
      exact h.detect hphase
    next => cases hstep
  | page =>
    rw [Handoff.step] at hstep
    split at hstep
    next paging hphase =>
      cases hstep
      exact h.page hphase
    next => cases hstep
  | startPoll order =>
    exact h.serve (a := .startPoll order) trivial (fun _ hd => Delivery.log_of_startPoll hd) hstep
  | scan => exact h.serve (a := .scan) trivial (fun _ hd => Delivery.log_of_scan hd) hstep
  | receive msg => exact h.serve ha (fun _ hd => Delivery.log_of_receive hd) hstep

variable (sub) in
theorem clientKey_injective : Function.Injective fun id : Int => (sub.entityType, toString id) := by
  intro x y hxy
  exact Int.repr_injective (Prod.mk.inj hxy).2

theorem Sound.replay_shown (h : Sound sub collates start s) (hserved : s.phase = .streaming none)
    {id : Int} (huntouched : s.Untouched id) :
    Replay.replay (fun _ => none) (s.shownRows.map fun r => (r.id, some r)) id =
      start.rows[id]? := by
  apply Replay.replay_eq_of_forall
  · intro w hw hid
    obtain ⟨r, hr, rfl⟩ := List.mem_map.mp hw
    subst hid
    exact (h.shown r hr huntouched).symm
  · cases hrow : start.rows[id]? with
    | none => exact Or.inl rfl
    | some r =>
      obtain rfl := start.keyed id r hrow
      have hshown := (h.reached none hserved r hrow huntouched).2 (by simp [Passed])
      exact Or.inr ⟨(r.id, some r), List.mem_map_of_mem hshown, rfl⟩

/-- Snapshot and log together give the table. -/
theorem Sound.replay_all (h : Sound sub collates start s) (hserved : s.phase = .streaming none)
    (hpending : s.pending = []) (id : Int) :
    Replay.replay (fun _ => none)
      ((s.shownRows.map fun r => (r.id, some r)) ++ s.routed.map RowChange.write) id =
      s.table.rows[id]? := by
  have htable : s.table.rows[id]? = Replay.replay (fun id => start.rows[id]?)
      (s.routed.map RowChange.write) id := by
    simpa [hpending] using congrFun h.table id
  rw [Replay.replay_append, htable]
  apply Replay.replay_congr
  by_cases huntouched : s.Untouched id
  · exact Or.inl (h.replay_shown hserved huntouched)
  · simp only [Untouched, hpending, List.append_nil] at huntouched
    push Not at huntouched
    obtain ⟨change, hchange, hid⟩ := huntouched
    exact Or.inr ⟨change.write, List.mem_map_of_mem hchange, hid⟩

theorem Sound.sent_of_caughtUp (h : Sound sub collates start s) (hcaught : s.CaughtUp sub) :
    (s.delivery.sentOps sub.bucket).filterMap opWrite =
      s.routed.map fun change => clientWrite sub change.write := by
  have howed : owed s.delivery.log sub.bucket none = (s.delivery.log sub.bucket).toList := by
    simp [owed]
  have hexact := h.exact (by simp [hcaught.1])
  have hsent := hexact.sentOps_of_covered (howed ▸ hcaught.2.2)
  rw [hsent, howed, List.filterMap_map, ← h.log]
  rfl

theorem Sound.clientRows_eq (h : Sound sub collates start s) (hcaught : s.CaughtUp sub) (id : Int) :
    s.clientRows sub (sub.entityType, toString id) = s.table.rows[id]?.map IdRow.data := by
  have hrename (writes : List (Int × Option IdRow)) :
      Replay.replay (fun _ => none) (writes.map (clientWrite sub)) (sub.entityType, toString id) =
        (Replay.replay (fun _ => none) writes id).map IdRow.data :=
    Replay.replay_map (clientKey_injective sub) IdRow.data rfl writes
  rw [← h.replay_all hcaught.1 hcaught.2.1, ← hrename, clientRows, h.sent_of_caughtUp hcaught]
  simp [Function.comp_def]

theorem Sound.converged (h : Sound sub collates start s) (hcaught : s.CaughtUp sub) :
    s.Converged sub := by
  intro key row
  by_cases hkey : ∃ id : Int, key = (sub.entityType, toString id)
  · obtain ⟨id, rfl⟩ := hkey
    rw [h.clientRows_eq hcaught, Option.map_eq_some_iff]
    constructor
    · rintro ⟨r, hr, rfl⟩
      obtain rfl := s.table.keyed id r hr
      exact ⟨r, hr, rfl, rfl⟩
    · rintro ⟨r, hr, hid, rfl⟩
      rw [clientKey_injective sub hid]
      exact ⟨r, hr, rfl⟩
  · have hnone : s.clientRows sub key = none := by
      rw [clientRows, h.sent_of_caughtUp hcaught]
      apply Replay.replay_eq_of_forall _ (Or.inl rfl)
      intro w hw hwkey
      have hid : ∃ id : Int, w.1 = (sub.entityType, toString id) := by
        simp only [rowWrite_data, clientWrite, List.mem_append, List.mem_filterMap, List.mem_map,
          Option.some.injEq] at hw
        obtain ⟨r, _, rfl⟩ | ⟨change, _, rfl⟩ := hw
        · exact ⟨r.id, rfl⟩
        · exact ⟨change.write.1, rfl⟩
      exact absurd (hwkey ▸ hid) hkey
    rw [hnone]
    constructor
    · intro h
      cases h
    · rintro ⟨r, _, rfl, _⟩
      exact absurd ⟨r.id, rfl⟩ hkey

/-- Polling when all changes are routed is catching up. -/
theorem Sound.caughtUp_of_scan {t : Handoff} (h : Sound sub collates start s)
    (hpending : s.pending = []) (hscan : s.step sub collates .scan = some t) : t.CaughtUp sub := by
  change s.serve .scan = some t at hscan
  rw [Handoff.serve] at hscan
  split at hscan
  next hphase =>
    obtain ⟨d, hd, rfl⟩ := Option.map_eq_some_iff.mp hscan
    refine ⟨hphase, hpending, ?_⟩
    intro e he
    apply ((h.exact (by simp [hphase])).scan hd).2 e
    simpa [owed] using he
  next => cases hscan

end

/-- The handoff converges: however the changes, the router, the page reads and the polls
interleave, a client whose session has caught up holds exactly the rows of the bucket, and a
session catches up with its next poll once the router has. -/
theorem handoff_converges (sub : Subscription) (collates : String → String → Bool) (table : Table)
    {actions : List HandoffAction} {s : Handoff}
    (horderly : Meets (step sub collates) (Orderly sub) (init table) actions)
    (hrun : run (step sub collates) (init table) actions = some s) :
    (s.CaughtUp sub → s.Converged sub) ∧
      (s.pending = [] → ∀ t, s.step sub collates .scan = some t →
        t.CaughtUp sub ∧ t.Converged sub) := by
  have hsound : Sound sub collates table s := horderly.invariant
    (fun _ _ _ hs ha hstep => hs.step ha hstep) (sound_init table) hrun
  refine ⟨hsound.converged, ?_⟩
  intro hpending t hscan
  have hcaught := hsound.caughtUp_of_scan hpending hscan
  exact ⟨hcaught, (hsound.step (a := .scan) trivial hscan).converged hcaught⟩

private def ownerSubscription : Subscription where
  assignments := [Rules.ownerAssignment "42"]
  requested := ["user_entities"]
  bucket := ⟨"user_entities:user_id=\"42\""⟩
  single := by decide
  entityType := "entities"
  dataQuery := by
    intro a ha
    cases ha
    rfl

private def noteRow (id : Int) (note : String) : IdRow where
  id := id
  data := .object [("id", .number (.int id)), ("note", .string note)]
  idField := rfl

private def oneNote : Table := (RowChange.put (noteRow 1 "first")).apply ⟨∅, by simp⟩

/-- One row is changed before the only page is read, another is deleted after it. -/
private def changesAroundPage : List HandoffAction :=
  [.commit (.put (noteRow 2 "draft")), .subscribe, .detect, .route 0 5,
    .commit (.put (noteRow 2 "final")), .page, .commit (.delete 1), .route 0 6, .route 0 7,
    .startPoll [ownerSubscription.bucket]]

private def byCodePoint (x y : String) : Bool := decide (y < x)

theorem handoff_converges_around_page :
    ∃ s t, run (step ownerSubscription byCodePoint) (init oneNote) changesAroundPage = some s ∧
      s.pending = [] ∧ s.step ownerSubscription byCodePoint .scan = some t ∧
      t.CaughtUp ownerSubscription ∧ t.Converged ownerSubscription := by
  have horderly : Meets (step ownerSubscription byCodePoint) (Orderly ownerSubscription)
      (init oneNote) changesAroundPage := by
    decide
  exact ⟨_, _, rfl, rfl, rfl,
    (handoff_converges ownerSubscription byCodePoint oneNote horderly rfl).2 rfl _ rfl⟩

end Handoff

end EntitySync.System
