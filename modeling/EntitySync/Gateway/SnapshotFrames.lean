import EntitySync.Gateway.Connection
import EntitySync.Oplog.Divergence
import EntitySync.Oplog.Envelope
import EntitySync.Snapshot.RowChecksum
import EntitySync.Snapshot.Stream

/-!
# What snapshot frames tell a client

A connection sends the snapshots of its fresh buckets one after another, whatever falls between its
steps. A client that recomputes the row checksums of the batches it received compares them with the
checksum of `SnapshotComplete`, which is the one of the op log. And the batches of all data queries
of a bucket come in one sequence without their names, in the order in which the map of data queries
is visited.
-/

namespace EntitySync.Gateway

open Json (Value)
open Oplog (Codec Duration historyChecksum payloads)
open Snapshot (checksumRows checksumBatches)
open StepSystem

/-! ## The frames of a delivery -/

def openFrames (wire : BucketId) (batches : List (List Value)) : List ServerMessage :=
  .snapshotBegin wire 0 protocolVersion ::
    batches.zipIdx.map fun batch => .snapshotBatch wire batch.1 (.ofNat batch.2)

theorem openFrames_concat (wire : BucketId) (batches : List (List Value)) (rows : List Value) :
    openFrames wire (batches ++ [rows]) =
      openFrames wire batches ++ [.snapshotBatch wire rows (.ofNat batches.length)] := by
  simp [openFrames, List.zipIdx_append]

theorem Session.deliverSnapshots_concat (session : Session) {done : List BucketId} {b : BucketId}
    (hb : b ∉ done) (reads : BucketId → List (List Value) × BucketChecksum)
    (batches : List (List Value)) (checksum : BucketChecksum) :
    session.deliverSnapshots (done ++ [b]) (Function.update reads b (batches, checksum)) =
      session.deliverSnapshots done reads ++ openFrames (session.wireBucketId b) batches ++
        [.snapshotComplete (session.wireBucketId b) checksum] := by
  have hdone : session.deliverSnapshots done (Function.update reads b (batches, checksum)) =
      session.deliverSnapshots done reads := by
    refine List.flatMap_congr fun c hc => ?_
    rw [Function.update_of_ne (ne_of_mem_of_not_mem hc hb)]
  rw [deliverSnapshots, List.flatMap_append, ← deliverSnapshots, hdone, List.flatMap_singleton,
    Function.update_self, snapshotFrames, List.append_assoc]
  rfl

namespace Connection

/-- How far `deliver_snapshots` has come after the frames `before` it. -/
def Delivering (before : List ServerMessage) (session : Session) (order : List BucketId)
    (s : Connection) : Prop :=
  match s.phase with
  | .snapshots current queue => current = session ∧ ∃ done reads,
    order = done ++ queue ∧ s.sent = before ++ session.deliverSnapshots done reads
  | .streaming current b _ offset queue => current = session ∧ ∃ done reads batches,
    order = done ++ b :: queue ∧ offset = .ofNat batches.length ∧
      s.sent = before ++ session.deliverSnapshots done reads ++
        openFrames (session.wireBucketId b) batches
  | .serving _ _ | .reporting _ _ | .closed _ => True
  | .awaiting | .validating _ _ | .assigning _ _ => False

variable {before : List ServerMessage} {session : Session} {order : List BucketId}

theorem Delivering.step (hnodup : order.Nodup) {s t : Connection} {a : ConnectionAction}
    (h : s.Delivering before session order) (hstep : s.step a = some t) :
    t.Delivering before session order := by
  cases steps_of_step hstep with
  | append | compact => exact h
  | subscribe msg nowMs outcome hphase | rejected e hphase | validated claims hphase
  | unassigned hphase hassign | assigned hphase hassign horder =>
    simp only [Delivering, hphase] at h
  | receive msg nowMs outcome hphase =>
    cases msg with
    | ended | close | failed => trivial
    | other => exact h
    | binary decoded =>
      cases decoded with
      | error error => simp only [receive, send, Delivering, hphase]
      | ok msg =>
        cases msg with
        | write entityType entityId op => cases outcome <;> trivial
        | subscribe | ack | ping => trivial
  | beginSnapshot checksum hphase =>
    simp only [Delivering, hphase] at h
    obtain ⟨rfl, done, reads, horder, hsent⟩ := h
    exact ⟨rfl, done, reads, [], horder, rfl, congrArg (· ++ [_]) hsent⟩
  | batch rows hphase =>
    simp only [Delivering, hphase] at h
    obtain ⟨rfl, done, reads, batches, horder, rfl, hsent⟩ := h
    refine ⟨rfl, done, reads, batches ++ [rows], horder, by simp, ?_⟩
    rw [openFrames_concat, ← List.append_assoc, ← hsent]
    rfl
  | @endSnapshot _ b checksum offset queue hphase =>
    simp only [Delivering, hphase] at h
    obtain ⟨rfl, done, reads, batches, rfl, _, hsent⟩ := h
    have hb : b ∉ done := by
      intro hmem
      exact (List.nodup_append.mp hnodup).2.2 b hmem b List.mem_cons_self rfl
    refine ⟨rfl, done ++ [b], Function.update reads b (batches, checksum), by simp, ?_⟩
    rw [Session.deliverSnapshots_concat _ hb, ← List.append_assoc, ← List.append_assoc, ← hsent]
    rfl
  | startPoll hphase hpoll | scan hphase hpoll =>
    obtain ⟨d, _, rfl⟩ := Option.map_eq_some_iff.mp hpoll
    trivial
  | keepalive nowMs hphase => simp only [send, Delivering, hphase]
  | report sent hphase => cases sent <;> trivial
  | snapshotFailed | batchFailed | serve | scanFailed | shutdown | sendFailed | deltaFailed =>
    trivial

/-- A connection that comes through its snapshots has sent the frames of `deliverSnapshots`, for
what was read on the way. -/
theorem sent_of_delivered (horder : order.Perm session.freshBuckets) {s t : Connection}
    {as : List ConnectionAction} (hrun : run step s as = some t)
    (hs : s.phase = .snapshots session order) (ht : t.phase = .snapshots session []) :
    ∃ reads, t.sent = s.sent ++ session.deliverSnapshots order reads := by
  have hnodup : order.Nodup :=
    horder.nodup_iff.mpr (session.authorizedBuckets.keys_nodup.filter _)
  have hstart : s.Delivering s.sent session order := by
    simp only [Delivering, hs]
    exact ⟨trivial, [], fun _ => ([], 0), rfl, (List.append_nil _).symm⟩
  have hend := run_invariant (fun s a t => Delivering.step hnodup) hstart hrun
  simp only [Delivering, ht, List.append_nil] at hend
  obtain ⟨_, _, reads, rfl, hsent⟩ := hend
  exact ⟨reads, hsent⟩

end Connection

/-! ## Checksums -/

section
variable (xxh3 : List UInt8 → UInt64)

def rowsChecksum (batches : List (List Value)) : BucketChecksum :=
  checksumBatches xxh3 (batches.map (checksumRows xxh3))

/-- A client that recomputes the checksum of each snapshot from its batches, given those of the
running snapshot, and compares it when the snapshot is complete. -/
def verifies : List (List Value) → List ServerMessage → Bool
  | _, [] => true
  | _, .snapshotBegin _ _ _ :: frames => verifies [] frames
  | received, .snapshotBatch _ rows _ :: frames => verifies (received ++ [rows]) frames
  | received, .snapshotComplete _ checksum :: frames =>
    decide (checksum = rowsChecksum xxh3 received) && verifies [] frames
  | received, _ :: frames => verifies received frames

/-- Other batches with the same checksum have the same batch checksums, or the hash collides. -/
def Detects (batches : List (List Value)) (checksum : BucketChecksum) : Prop :=
  ∀ received, rowsChecksum xxh3 received = checksum →
    received.map (checksumRows xxh3) = batches.map (checksumRows xxh3) ∨
      ∃ u v, u ≠ v ∧ xxh3 u = xxh3 v

variable {xxh3}

theorem leBytes_injective :
    Function.Injective fun c : BucketChecksum => (BigEndian.bytes 8 c.toNat).reverse := by
  intro x y h
  have hvalue := congrArg BigEndian.value (List.reverse_injective h)
  rw [BigEndian.value_bytes_of_lt (by simpa using x.toNat_lt),
    BigEndian.value_bytes_of_lt (by simpa using y.toNat_lt)] at hvalue
  exact UInt64.toNat_inj.mp hvalue

/-- Equal checksums of different batch checksums are a collision of the hash. -/
theorem checksumBatches_eq_or_collision {xs ys : List BucketChecksum}
    (h : checksumBatches xxh3 xs = checksumBatches xxh3 ys) :
    xs = ys ∨ ∃ u v, u ≠ v ∧ xxh3 u = xxh3 v := by
  by_cases heq : xs = ys
  · exact Or.inl heq
  · refine Or.inr ⟨_, _, ?_, h⟩
    intro hbytes
    exact heq (Delimited.flatMap_inj_of_length (n := 8) (by decide) (by simp) leBytes_injective
      hbytes)

theorem detects_rowsChecksum (batches : List (List Value)) :
    Detects xxh3 batches (rowsChecksum xxh3 batches) :=
  fun _ h => checksumBatches_eq_or_collision h

theorem verifies_batches (wire : BucketId) (received batches : List (List Value)) (n : Nat)
    (frames : List ServerMessage) :
    verifies xxh3 received
        ((batches.zipIdx n).map (fun batch =>
          ServerMessage.snapshotBatch wire batch.1 (.ofNat batch.2)) ++ frames) =
      verifies xxh3 (received ++ batches) frames := by
  induction batches generalizing received n with
  | nil => simp
  | cons rows batches ih =>
    rw [List.zipIdx_cons, List.map_cons, List.cons_append, verifies, ih]
    simp

theorem verifies_snapshotFrames (wire : BucketId) (batches : List (List Value))
    (checksum : BucketChecksum) (received : List (List Value)) (frames : List ServerMessage) :
    verifies xxh3 received (snapshotFrames wire batches checksum ++ frames) =
      (decide (checksum = rowsChecksum xxh3 batches) && verifies xxh3 [] frames) := by
  rw [snapshotFrames, List.append_assoc, List.cons_append, verifies, verifies_batches]
  rfl

theorem verifies_deliverSnapshots (session : Session) (order : List BucketId)
    (reads : BucketId → List (List Value) × BucketChecksum) :
    verifies xxh3 [] (session.deliverSnapshots order reads) = true ↔
      ∀ b ∈ order, (reads b).2 = rowsChecksum xxh3 (reads b).1 := by
  induction order with
  | nil => simp [Session.deliverSnapshots, verifies]
  | cons b order ih =>
    rw [List.forall_mem_cons, ← ih, Session.deliverSnapshots, List.flatMap_cons,
      verifies_snapshotFrames]
    simp [Session.deliverSnapshots]

/-- The snapshot frames of the fresh buckets, where the checksum of each bucket is read from the op
log after the steps given for it. -/
def snapshotsAfter (codec : Codec) (ttl : Duration) (session : Session)
    (order : List BucketId) (batches : BucketId → List (List Value))
    (steps : BucketId → List Oplog.Step) : List ServerMessage :=
  session.deliverSnapshots order fun b =>
    (batches b, (Oplog.run codec (.empty ttl) (steps b)).checksum b)

theorem verifies_snapshotsAfter {codec : Codec} {ttl : Duration} {session : Session}
    {order : List BucketId} {batches : BucketId → List (List Value)}
    {steps : BucketId → List Oplog.Step} :
    verifies xxh3 [] (snapshotsAfter codec ttl session order batches steps) = true ↔
      ∀ b ∈ order,
        historyChecksum (payloads codec b (steps b)) = rowsChecksum xxh3 (batches b) := by
  rw [snapshotsAfter, verifies_deliverSnapshots]
  simp only [Oplog.checksum_run]
  rfl

theorem historyChecksum_payloads_append (codec : Codec) (b : BucketId) (steps : List Oplog.Step)
    (lsn : PgLsn) (op : BucketOp) (now : UInt64) :
    historyChecksum (payloads codec b (steps ++ [.append b lsn op now true])) =
      Oplog.foldChecksum (historyChecksum (payloads codec b steps)) (codec.toVec ⟨op, now⟩) := by
  simp [historyChecksum, payloads, Oplog.committed, Oplog.Step.commits]

/-- A client can verify the snapshots of all fresh buckets, and detects any other sequence of
batches, exactly if for each bucket the fold of the payloads ever appended to it happens to be the
hash of the rows in the batches. No rows have this whatever was appended: after any steps, an op
appended to a fresh bucket in an even second or in the next one, at least one of the two logs gives
a snapshot that does not verify. -/
theorem snapshots_verifiable_iff (xxh3 : List UInt8 → UInt64) {layout : MsgPack.FloatLayout}
    {codec : Codec} (hcodec : codec.Compact layout) (ttl : Duration) (session : Session)
    (order : List BucketId) (batches : BucketId → List (List Value))
    (steps : BucketId → List Oplog.Step) :
    ((verifies xxh3 [] (snapshotsAfter codec ttl session order batches steps) = true ∧
        ∀ b ∈ order, Detects xxh3 (batches b) (historyChecksum (payloads codec b (steps b)))) ↔
      ∀ b ∈ order, historyChecksum (payloads codec b (steps b)) = rowsChecksum xxh3 (batches b)) ∧
    ∀ b ∈ order, ∀ (lsn : PgLsn) (op : BucketOp) (now : UInt64), Oplog.Storable layout op →
      now % 2 = 0 →
      let appended (second : UInt64) : BucketId → List Oplog.Step :=
        Function.update steps b (steps b ++ [.append b lsn op second true])
      ¬(verifies xxh3 [] (snapshotsAfter codec ttl session order batches (appended now)) = true ∧
        verifies xxh3 []
          (snapshotsAfter codec ttl session order batches (appended (now + 1))) = true) := by
  constructor
  · rw [verifies_snapshotsAfter]
    constructor
    · intro h
      exact h.1
    · intro h
      refine ⟨h, ?_⟩
      intro b hb
      rw [h b hb]
      exact detects_rowsChecksum _
  · intro b hb lsn op now hop heven appended h
    rw [verifies_snapshotsAfter, verifies_snapshotsAfter] at h
    have heq := (h.1 b hb).trans (h.2 b hb).symm
    simp only [appended, Function.update_self, historyChecksum_payloads_append] at heq
    obtain ⟨front, x, y, hne, hx, hy⟩ := hcodec.differAtEnd hop heven
    rw [hx, hy] at heq
    exact Oplog.foldChecksum_replaced_ne hne front [] _ heq

end

private def todos : BucketId := ⟨"todos"⟩

private def rowA : Value := .object [("id", .string "a")]

private def upsertA : BucketOp := ⟨1, todos, "Todo", "a", .upsert rowA⟩

private theorem storable_upsertA (layout : MsgPack.FloatLayout) :
    Oplog.Storable layout upsertA := by
  have hrow : upsertA.op.WellFormed (depthLimit - 2) :=
    ⟨⟨List.pairwise_singleton _ _, trivial, trivial⟩, by decide⟩
  have hwrite : rowA.write.Fits layout := by
    refine MsgPack.fits_map (by decide : 1 < 256 ^ 4) ?_
    intro e he
    obtain rfl := List.mem_singleton.mp he
    exact ⟨MsgPack.fits_str (by decide), MsgPack.fits_str (by decide)⟩
  exact Oplog.storable_of_fits hrow (MsgPack.fits_str (by decide)) (MsgPack.fits_str (by decide))
    (MsgPack.fits_str (by decide)) (MsgPack.fits_writeVariant (MsgPack.fits_str (by decide)) hwrite)

theorem snapshots_verifiable_msgPack :
    let sent (second : UInt64) : List ServerMessage :=
      snapshotsAfter (.msgPack .plain) ⟨604800, 0⟩ (handshake [] [] none) [todos]
        (fun _ => [[rowA]])
        (Function.update (fun _ => []) todos
          ([] ++ [.append todos 1 upsertA second true]))
    ¬(verifies (fun _ => 0) [] (sent 1800000000) = true ∧
      verifies (fun _ => 0) [] (sent (1800000000 + 1)) = true) :=
  (snapshots_verifiable_iff (fun _ => 0) (Codec.compact_msgPack .plain) _ _ _ _ _).2 todos
    List.mem_cons_self 1 upsertA 1800000000 (storable_upsertA _) rfl

/-- The same rows from two op logs, one of them empty and the other after an upsert of the row:
whatever the hash is, at least one of the snapshots does not verify. -/
theorem snapshot_checksum_ignores_rows :
    ¬∃ (layout : MsgPack.FloatLayout) (xxh3 : List UInt8 → UInt64),
      let session : Session := handshake [] [] none
      let sent := snapshotsAfter (.msgPack layout) ⟨604800, 0⟩ session [todos]
        fun _ => [[rowA]]
      verifies xxh3 [] (sent fun _ => []) = true ∧
        verifies xxh3 [] (sent fun _ => [.append todos 1 upsertA 7 true]) = true := by
  rintro ⟨layout, xxh3, hempty, hlater⟩
  rw [verifies_snapshotsAfter] at hempty hlater
  have heq := (hempty todos List.mem_cons_self).trans (hlater todos List.mem_cons_self).symm
  have happend := historyChecksum_payloads_append (.msgPack layout) todos [] 1 upsertA 7
  rw [List.nil_append] at happend
  have hbytes : (Codec.msgPack layout).toVec ⟨upsertA, 7⟩ =
      (Oplog.StoredOp.write ⟨upsertA, 7⟩).bytes .plain :=
    Codec.compact_msgPack layout ⟨upsertA, 7⟩ (storable_upsertA layout)
  rw [happend, hbytes] at heq
  have hne : (0 : BucketChecksum) ≠
      Oplog.foldChecksum 0 ((Oplog.StoredOp.write ⟨upsertA, 7⟩).bytes .plain) := by
    decide
  exact hne heq

/-- The batches of `SnapshotStream` for one bucket, each with the name of its data query: the data
queries in the order of the map, and for each of them its pages. -/
def streamBatches (dataQueries : HashMap String String) (pages : String → List (List Value)) :
    List (String × List Value) :=
  dataQueries.keys.flatMap fun name => (pages name).map fun rows => (name, rows)

/-- The snapshot frames of one bucket; `deliver_snapshots` drops the names. -/
def bucketSnapshot (wire : BucketId) (dataQueries : HashMap String String)
    (pages : String → List (List Value)) (checksum : BucketChecksum) : List ServerMessage :=
  snapshotFrames wire ((streamBatches dataQueries pages).map Prod.snd) checksum

def Paged (pages : List (List Value)) : Prop :=
  Delimited.Block (fun rows => rows.length < Snapshot.defaultBatchSize) pages ∧
    ∀ rows ∈ pages, rows.length ≤ Snapshot.defaultBatchSize

def rowsFor (dataQueries : HashMap String String) (pages : String → List (List Value))
    (name : String) : List Value :=
  ((streamBatches dataQueries pages).filter fun batch => batch.1 = name).flatMap Prod.snd

/-- Two deliveries of a bucket with these maps of data queries: equal frames mean equal rows for
every name, whatever the tables hold. -/
def FramesDetermineTables (dataQueries dataQueries' : HashMap String String) : Prop :=
  ∀ wire pages pages' checksum checksum', (∀ name, Paged (pages name)) →
    (∀ name, Paged (pages' name)) →
    bucketSnapshot wire dataQueries pages checksum =
      bucketSnapshot wire dataQueries' pages' checksum' →
    ∀ name, rowsFor dataQueries pages name = rowsFor dataQueries' pages' name

theorem map_snd_streamBatches (dataQueries : HashMap String String)
    (pages : String → List (List Value)) :
    (streamBatches dataQueries pages).map Prod.snd = (dataQueries.keys.map pages).flatten := by
  simp [streamBatches, List.flatMap_def, Function.comp_def]

def batchRows : ServerMessage → Option (List Value)
  | .snapshotBatch _ rows _ => some rows
  | _ => none

theorem filterMap_batchRows_snapshotFrames (wire : BucketId) (batches : List (List Value))
    (checksum : BucketChecksum) :
    (snapshotFrames wire batches checksum).filterMap batchRows = batches := by
  have hbatches (n : Nat) : ((batches.zipIdx n).map fun batch =>
      ServerMessage.snapshotBatch wire batch.1 (.ofNat batch.2)).filterMap batchRows = batches := by
    induction batches generalizing n with
    | nil => rfl
    | cons rows batches ih =>
      rw [List.zipIdx_cons, List.map_cons, List.filterMap_cons, batchRows, ih]
  rw [snapshotFrames, List.filterMap_append, List.filterMap_cons, hbatches]
  simp [batchRows]

private theorem flatMap_filter_names {names : List String} (hnodup : names.Nodup)
    (pages : String → List (List Value)) (name : String) :
    ((names.flatMap fun n => (pages n).map fun rows => (n, rows)).filter
        fun batch => batch.1 = name).flatMap Prod.snd =
      if name ∈ names then (pages name).flatten else [] := by
  induction names with
  | nil => rfl
  | cons n names ih =>
    obtain ⟨hfresh, hnodup⟩ := List.nodup_cons.mp hnodup
    rw [List.flatMap_cons, List.filter_append, List.flatMap_append, ih hnodup]
    by_cases hn : n = name
    · subst hn
      simp [hfresh, List.filter_map, List.flatMap_def, Function.comp_def]
    · have hne : name ≠ n := fun h => hn h.symm
      simp [hn, hne, List.filter_map, Function.comp_def]

theorem rowsFor_eq (dataQueries : HashMap String String) (pages : String → List (List Value))
    (name : String) : rowsFor dataQueries pages name =
      if name ∈ dataQueries.keys then (pages name).flatten else [] :=
  flatMap_filter_names dataQueries.keys_nodup pages name

/-- Equal frames show the pages of the same number of data queries, in the same places. -/
theorem map_pages_eq {wire : BucketId} {dataQueries dataQueries' : HashMap String String}
    {pages pages' : String → List (List Value)} {checksum checksum' : BucketChecksum}
    (hpages : ∀ name, Paged (pages name)) (hpages' : ∀ name, Paged (pages' name))
    (h : bucketSnapshot wire dataQueries pages checksum =
      bucketSnapshot wire dataQueries' pages' checksum') :
    dataQueries.keys.map pages = dataQueries'.keys.map pages' := by
  have hbatches := congrArg (List.filterMap batchRows) h
  rw [bucketSnapshot, bucketSnapshot, filterMap_batchRows_snapshotFrames,
    filterMap_batchRows_snapshotFrames, map_snd_streamBatches, map_snd_streamBatches] at hbatches
  have hblocks {pages : String → List (List Value)} (hpages : ∀ name, Paged (pages name))
      (names : List String) : ∀ ps ∈ names.map pages,
        Delimited.Block (fun rows => rows.length < Snapshot.defaultBatchSize) ps := by
    intro ps hps
    obtain ⟨name, _, rfl⟩ := List.mem_map.mp hps
    exact (hpages name).1
  exact Delimited.flatten_inj_of_block (hblocks hpages _) (hblocks hpages' _) hbatches

private def onlyFor (marked : String) (name : String) : List (List Value) :=
  if name = marked then [[.object [("id", .string "a")]]] else [[]]

private theorem paged_onlyFor (marked name : String) : Paged (onlyFor marked name) := by
  rw [onlyFor]
  split
  · exact ⟨⟨[], _, rfl, by decide, nofun⟩, by simp [Snapshot.defaultBatchSize]⟩
  · exact ⟨⟨[], _, rfl, by decide, nofun⟩, by simp⟩

private theorem map_onlyFor_eq {names names' : List String} (hnodup : names.Nodup)
    (hnodup' : names'.Nodup) (hlength : names.length = names'.length) {i : Nat}
    (hi : i < names.length) (hi' : i < names'.length) :
    names.map (onlyFor names[i]) = names'.map (onlyFor names'[i]) := by
  apply List.ext_getElem
  · simpa using hlength
  · intro j hj hj'
    rw [List.length_map] at hj hj'
    simp only [List.getElem_map, onlyFor, hnodup.getElem_inj_iff, hnodup'.getElem_inj_iff]

/-- The frames determine the tables if and only if the two maps cannot be visited in different
orders: with the same number of data queries, the names come in the same order. -/
theorem framesDetermineTables_iff (dataQueries dataQueries' : HashMap String String) :
    FramesDetermineTables dataQueries dataQueries' ↔
      (dataQueries.keys.length = dataQueries'.keys.length →
        dataQueries.keys = dataQueries'.keys) := by
  constructor
  · intro h hlength
    by_contra hne
    obtain ⟨i, hi, hi', hdiff⟩ : ∃ i, ∃ hi : i < dataQueries.keys.length,
        ∃ hi' : i < dataQueries'.keys.length, dataQueries.keys[i] ≠ dataQueries'.keys[i] := by
      by_contra hall
      push Not at hall
      exact hne (List.ext_getElem hlength hall)
    have hmap := map_onlyFor_eq dataQueries.keys_nodup dataQueries'.keys_nodup hlength hi hi'
    have hframes : bucketSnapshot ⟨"bucket"⟩ dataQueries (onlyFor dataQueries.keys[i]) 0 =
        bucketSnapshot ⟨"bucket"⟩ dataQueries' (onlyFor dataQueries'.keys[i]) 0 := by
      rw [bucketSnapshot, bucketSnapshot, map_snd_streamBatches, map_snd_streamBatches, hmap]
    have hrows := h _ _ _ _ _ (paged_onlyFor _) (paged_onlyFor _) hframes dataQueries.keys[i]
    rw [rowsFor_eq, rowsFor_eq, if_pos (List.getElem_mem hi)] at hrows
    simp [onlyFor, hdiff] at hrows
  · intro h wire pages pages' checksum checksum' hpages hpages' hframes name
    have hmap := map_pages_eq hpages hpages' hframes
    have hkeys := h (by simpa using congrArg List.length hmap)
    rw [hkeys] at hmap
    rw [rowsFor_eq, rowsFor_eq, hkeys]
    by_cases hname : name ∈ dataQueries'.keys
    · rw [if_pos hname, if_pos hname, List.map_inj_left.mp hmap name hname]
    · rw [if_neg hname, if_neg hname]

/-- Two data queries visited in two orders: the same frames, and the row belongs to another
table. -/
theorem snapshot_tables_ambiguous :
    let entities : List Value := [.object [("id", .string "a")]]
    let first : HashMap String String :=
      (AList.insert "entities" "q" ∅ : HashMap String String).insert "entity_types" "r"
    let second : HashMap String String :=
      (AList.insert "entity_types" "r" ∅ : HashMap String String).insert "entities" "q"
    let pages (rows rows' : List Value) (name : String) : List (List Value) :=
      if name = "entities" then [rows] else [rows']
    (∀ name, first.lookup name = second.lookup name) ∧
      bucketSnapshot ⟨"user_entities"⟩ first (pages entities []) 0 =
        bucketSnapshot ⟨"user_entities"⟩ second (pages [] entities) 0 ∧
      rowsFor first (pages entities []) "entities" = entities ∧
      rowsFor second (pages [] entities) "entities" = [] := by
  intro entities first second pages
  refine ⟨?_, rfl, rfl, rfl⟩
  intro name
  by_cases hname : name = "entities"
  · subst hname
    rfl
  · by_cases hname' : name = "entity_types"
    · subst hname'
      rfl
    · simp only [first, second, AList.lookup_insert_ne hname, AList.lookup_insert_ne hname']

end EntitySync.Gateway
