import EntitySync.Oplog.Partition
import EntitySync.Rules.BucketKey

/-!
# Routing of change events

`InProcessBroker` stamps each published event with the next offset and hands it to the router,
which appends one op per affected bucket at `lsn = offset`. The payload of an envelope stands
here as the change it decodes to, `none` for a payload that does not decode.
-/

namespace EntitySync.Router

open Json (Value)
open Oplog (Partitions BucketOpLog Codec Represents FitsPrefix)
open Rules (BucketAssigner Instant)

/-- `frf_domain::ChangeOp`; the enum is non-exhaustive. -/
inductive ChangeOp where
  | insert
  | update
  | upsert
  | delete
  | other
deriving DecidableEq, Repr

/-- `frf_domain::EntityChange`, with the id as the text the router stores. -/
structure EntityChange where
  entityType : String
  entityId : String
  op : ChangeOp
  data : Value
deriving DecidableEq

structure EventEnvelope where
  offset : PgLsn
  payload : Option EntityChange
deriving DecidableEq

/-- The counter of the broker and the events published but not yet routed. -/
structure InProcessBroker where
  nextOffset : UInt64
  queue : List EventEnvelope

def InProcessBroker.new : InProcessBroker := ⟨0, []⟩

def InProcessBroker.publish (broker : InProcessBroker) (payload : Option EntityChange) :
    InProcessBroker where
  nextOffset := broker.nextOffset + 1
  queue := broker.queue ++ [⟨broker.nextOffset, payload⟩]

structure InProcessBroker.Ordered (broker : InProcessBroker) (routed : PgLsn → Prop) : Prop where
  queue : broker.queue.Pairwise fun x y => x.offset < y.offset
  next : ∀ e ∈ broker.queue, e.offset < broker.nextOffset
  routed : ∀ l, routed l → l < broker.nextOffset ∧ ∀ e ∈ broker.queue, l < e.offset

namespace InProcessBroker

theorem ordered_new {routed : PgLsn → Prop} (h : ∀ l, ¬routed l) :
    InProcessBroker.new.Ordered routed := by
  refine ⟨List.Pairwise.nil, ?_, fun l hl => absurd hl (h l)⟩
  intro e he
  cases he

theorem Ordered.publish {broker : InProcessBroker} {routed : PgLsn → Prop}
    (h : broker.Ordered routed) (hnext : broker.nextOffset < PgLsn.max)
    (payload : Option EntityChange) : (broker.publish payload).Ordered routed := by
  have hsucc : broker.nextOffset < broker.nextOffset + 1 :=
    (PgLsn.succ_le_iff hnext).mp (UInt64.le_refl _)
  refine ⟨?_, ?_, ?_⟩
  · refine List.pairwise_append.mpr ⟨h.queue, List.pairwise_singleton _ _, ?_⟩
    intro e he new hnew
    rw [List.mem_singleton.mp hnew]
    exact h.next e he
  · intro e he
    cases List.mem_append.mp he with
    | inl hold => exact UInt64.lt_trans (h.next e hold) hsucc
    | inr hnew =>
      rw [List.mem_singleton.mp hnew]
      exact hsucc
  · intro l hl
    refine ⟨UInt64.lt_trans (h.routed l hl).1 hsucc, ?_⟩
    intro e he
    cases List.mem_append.mp he with
    | inl hold => exact (h.routed l hl).2 e hold
    | inr hnew =>
      rw [List.mem_singleton.mp hnew]
      exact (h.routed l hl).1

theorem Ordered.route {broker : InProcessBroker} {routed : PgLsn → Prop}
    (h : broker.Ordered routed) {envelope : EventEnvelope} {queue : List EventEnvelope}
    (hqueue : broker.queue = envelope :: queue) :
    { broker with queue := queue }.Ordered fun l => routed l ∨ l = envelope.offset := by
  have hsorted := h.queue
  rw [hqueue, List.pairwise_cons] at hsorted
  have htail : ∀ e ∈ queue, e ∈ broker.queue := by
    intro e he
    rw [hqueue]
    exact List.mem_cons_of_mem _ he
  have hhead : envelope ∈ broker.queue := by
    rw [hqueue]
    exact List.mem_cons_self
  refine ⟨hsorted.2, fun e he => h.next e (htail e he), ?_⟩
  intro l hl
  cases hl with
  | inl hold => exact ⟨(h.routed l hold).1, fun e he => (h.routed l hold).2 e (htail e he)⟩
  | inr hnew =>
    rw [hnew]
    exact ⟨h.next envelope hhead, hsorted.1⟩

theorem Ordered.lt_head {broker : InProcessBroker} {routed : PgLsn → Prop}
    (h : broker.Ordered routed) {envelope : EventEnvelope} {queue : List EventEnvelope}
    (hqueue : broker.queue = envelope :: queue) {l : PgLsn} (hl : routed l) :
    l < envelope.offset :=
  (h.routed l hl).2 envelope (hqueue ▸ List.mem_cons_self)

theorem Ordered.head_lt_max {broker : InProcessBroker} {routed : PgLsn → Prop}
    (h : broker.Ordered routed) {envelope : EventEnvelope} {queue : List EventEnvelope}
    (hqueue : broker.queue = envelope :: queue) : envelope.offset < PgLsn.max :=
  UInt64.lt_of_lt_of_le (h.next envelope (hqueue ▸ List.mem_cons_self)) (PgLsn.le_max _)

theorem Ordered.lt_max {broker : InProcessBroker} {routed : PgLsn → Prop}
    (h : broker.Ordered routed) {l : PgLsn} (hl : routed l) : l < PgLsn.max :=
  UInt64.lt_of_lt_of_le (h.routed l hl).1 (PgLsn.le_max _)

theorem Ordered.mono {broker : InProcessBroker} {routed routed' : PgLsn → Prop}
    (h : broker.Ordered routed) (hsub : ∀ l, routed' l → routed l) : broker.Ordered routed' :=
  ⟨h.queue, h.next, fun l hl => h.routed l (hsub l hl)⟩

end InProcessBroker

def classifyOp (change : EntityChange) : Op :=
  match change.op with
  | .delete => .delete
  | .insert | .update | .upsert => .upsert change.data
  | .other => .upsert change.data

def bucketOp (lsn : PgLsn) (change : EntityChange) (b : BucketId) : BucketOp where
  lsn := lsn
  bucketId := b
  entityType := change.entityType
  entityId := change.entityId
  op := classifyOp change

/-- The appends that `route_one_event` makes for an envelope. -/
def routedOps (assigner : BucketAssigner) (now : Instant) (envelope : EventEnvelope) :
    List BucketOp :=
  match envelope.payload with
  | none => []
  | some change =>
    (assigner.findAffectedBuckets now change.entityType change.data).map
      (bucketOp envelope.offset change)

/-- `route_one_event` on the byte tables; `wall` is the second the appends read. -/
def routeOneEvent (codec : Codec) (assigner : BucketAssigner) (now : Instant) (wall : UInt64)
    (log : BucketOpLog) (envelope : EventEnvelope) : BucketOpLog :=
  (routedOps assigner now envelope).foldl
    (fun log op => log.append codec wall op.bucketId op.lsn op) log

def appendAll (wall : UInt64) (ps : Partitions) (ops : List BucketOp) : Partitions :=
  ops.foldl (fun ps op => ps.append wall op.bucketId op.lsn op) ps

def ownedInsert (id owner : String) : EntityChange where
  entityType := "entities"
  entityId := id
  op := .insert
  data := .object [("id", .string id), ("owner_id", .string owner)]

example : (routedOps (Rules.cachedOwner "42") 0 ⟨7, some (ownedInsert "a" "42")⟩).map
    (fun op => (op.lsn, op.bucketId.val)) = [(7, "user_entities:user_id=\"42\"")] := by decide

theorem represents_appendAll {codec : Codec} {log : BucketOpLog} {ps : Partitions}
    (h : Represents codec log ps) (wall : UInt64) (ops : List BucketOp)
    (hfits : ∀ op ∈ ops, FitsPrefix op.bucketId) :
    Represents codec (ops.foldl (fun log op => log.append codec wall op.bucketId op.lsn op) log)
      (appendAll wall ps ops) := by
  induction ops generalizing log ps with
  | nil => exact h
  | cons op ops ih =>
    exact ih (h.append wall (hfits op List.mem_cons_self) op.lsn op)
      fun other hmem => hfits other (List.mem_cons_of_mem _ hmem)

/-- Routing on the byte tables is routing on the partitions they represent. -/
theorem represents_routeOneEvent {codec : Codec} {log : BucketOpLog} {ps : Partitions}
    (h : Represents codec log ps) (assigner : BucketAssigner) (now : Instant) (wall : UInt64)
    (envelope : EventEnvelope)
    (hfits : ∀ op ∈ routedOps assigner now envelope, FitsPrefix op.bucketId) :
    Represents codec (routeOneEvent codec assigner now wall log envelope)
      (appendAll wall ps (routedOps assigner now envelope)) :=
  represents_appendAll h wall _ hfits

theorem mem_routedOps {assigner : BucketAssigner} {now : Instant} {envelope : EventEnvelope}
    {op : BucketOp} :
    op ∈ routedOps assigner now envelope ↔ ∃ change, envelope.payload = some change ∧
      op.bucketId ∈ assigner.findAffectedBuckets now change.entityType change.data ∧
      op = bucketOp envelope.offset change op.bucketId := by
  rw [routedOps]
  cases envelope.payload with
  | none => simp
  | some change =>
    rw [List.mem_map]
    constructor
    · intro h
      obtain ⟨b, hb, rfl⟩ := h
      exact ⟨change, rfl, hb, rfl⟩
    · intro h
      obtain ⟨other, heq, hb, hop⟩ := h
      cases heq
      exact ⟨op.bucketId, hb, hop.symm⟩

theorem lsn_of_mem_routedOps {assigner : BucketAssigner} {now : Instant}
    {envelope : EventEnvelope} {op : BucketOp} (h : op ∈ routedOps assigner now envelope) :
    op.lsn = envelope.offset := by
  obtain ⟨change, _, _, hop⟩ := mem_routedOps.mp h
  rw [hop]
  rfl

/-- Two routed ops of one event for the same bucket are the same op. -/
theorem routedOps_unique {assigner : BucketAssigner} {now : Instant} {envelope : EventEnvelope}
    {x y : BucketOp} (hx : x ∈ routedOps assigner now envelope)
    (hy : y ∈ routedOps assigner now envelope) (h : x.bucketId = y.bucketId) : x = y := by
  obtain ⟨change, hpayload, _, hxop⟩ := mem_routedOps.mp hx
  obtain ⟨other, hother, _, hyop⟩ := mem_routedOps.mp hy
  rw [hpayload, Option.some.injEq] at hother
  rw [hxop, hyop, h, hother]

theorem getElem?_appendAll_of_ne {wall : UInt64} {ps : Partitions} {ops : List BucketOp}
    {b : BucketId} {l : PgLsn} (h : ∀ op ∈ ops, op.bucketId = b → op.lsn ≠ l) :
    (appendAll wall ps ops b)[l]? = (ps b)[l]? := by
  induction ops generalizing ps with
  | nil => rfl
  | cons op ops ih =>
    rw [appendAll, List.foldl_cons]
    have hne : ¬(b = op.bucketId ∧ l = op.lsn) := by
      intro heq
      exact h op List.mem_cons_self heq.1.symm heq.2.symm
    have hhead := Partitions.getElem?_append ps wall op.bucketId b op.lsn l op
    rw [if_neg hne] at hhead
    rw [← hhead]
    exact ih fun other hmem => h other (List.mem_cons_of_mem _ hmem)

theorem getElem?_appendAll_of_mem {wall : UInt64} {ps : Partitions} {ops : List BucketOp}
    {op : BucketOp} (hmem : op ∈ ops)
    (hunique : ∀ x ∈ ops, x.bucketId = op.bucketId → x.lsn = op.lsn → x = op) :
    (appendAll wall ps ops op.bucketId)[op.lsn]? = some ⟨op, wall⟩ := by
  induction ops generalizing ps with
  | nil => cases hmem
  | cons x ops ih =>
    have htail : ∀ y ∈ ops, y.bucketId = op.bucketId → y.lsn = op.lsn → y = op :=
      fun y hy => hunique y (List.mem_cons_of_mem _ hy)
    by_cases hin : op ∈ ops
    · exact ih hin htail
    · have hx : op = x := by
        cases List.mem_cons.mp hmem with
        | inl heq => exact heq
        | inr hmem => exact absurd hmem hin
      subst hx
      have hfree : ∀ y ∈ ops, y.bucketId = op.bucketId → y.lsn ≠ op.lsn := by
        intro y hy hb hl
        exact hin (htail y hy hb hl ▸ hy)
      have hlater : (appendAll wall (ps.append wall op.bucketId op.lsn op) ops
          op.bucketId)[op.lsn]? = _ := getElem?_appendAll_of_ne hfree
      rw [appendAll] at hlater
      rw [appendAll, List.foldl_cons, hlater, Partitions.getElem?_append, if_pos ⟨rfl, rfl⟩]

section
variable {wall : UInt64} {ps : Partitions} {assigner : BucketAssigner} {now : Instant}
variable {envelope : EventEnvelope}

/-- Routing an event writes at the event's offset only. -/
theorem getElem?_appendAll_of_ne_offset {b : BucketId} {l : PgLsn} (h : l ≠ envelope.offset) :
    (appendAll wall ps (routedOps assigner now envelope) b)[l]? = (ps b)[l]? := by
  apply getElem?_appendAll_of_ne
  intro op hop _ hlsn
  exact h (hlsn.symm.trans (lsn_of_mem_routedOps hop))

theorem getElem?_appendAll_of_routed {op : BucketOp}
    (h : op ∈ routedOps assigner now envelope) :
    (appendAll wall ps (routedOps assigner now envelope) op.bucketId)[op.lsn]? =
      some ⟨op, wall⟩ :=
  getElem?_appendAll_of_mem h fun _ hx hb _ => routedOps_unique hx h hb

end

end EntitySync.Router
