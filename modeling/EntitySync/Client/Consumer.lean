import EntitySync.Client.LocalDb
import EntitySync.Client.SyncClient
import EntitySync.Library.StepSystem

/-!
# Applications over the sync client

The PGlite extension and the `prometheusSync` transport register handlers for the client's Deltas
and apply the ops to a local database. Their `applyOps` calls are not awaited: a batch stays
pending until its transaction commits or is rolled back, in any order. A frame arrives on the
client's open socket, so the answer of `handleMessage` is sent.
-/

namespace EntitySync.Client

open StepSystem

/-- What decides how an application handles a Delta. The transport registers one handler for each
change listener. -/
inductive App where
  | extension (paused : Bool)
  | transport (bucket table : String) (subscribed : Bool) (listeners : Nat)

def App.onDelta : App → BucketId → List BucketOp → List (List BucketOp)
  | .extension paused, _, ops => if paused then [] else [ops]
  | .transport bucket table _ listeners, b, ops =>
    let relevant := ops.filter fun op => op.entityType = table
    if b.val ≠ bucket ∨ relevant = [] then [] else List.replicate listeners relevant

structure Consumer where
  client : SyncClient
  app : App
  db : LocalDb
  /-- The batches whose transactions have not ended. -/
  pending : List (List BucketOp)
  /-- The ops of the committed transactions. -/
  applied : List BucketOp
  /-- The ops and the LSNs of the Deltas that came for a subscribed bucket. -/
  received : List (List BucketOp × PgLsn)
  sent : List ClientMessage

inductive ConsumerAction where
  | frame (msg : ServerMessage)
  | settle (i : Nat) (failed : Bool)
  | subscribeBucket (bucket : String) (resumeLsn : Option PgLsn)
  | pause
  | resume
  | query
  | addListener
  | removeListener

namespace Consumer

def start (app : App) (db : LocalDb) : Consumer where
  client := .new []
  app := app
  db := db
  pending := []
  applied := []
  received := []
  sent := []

def delta? : ServerMessage → Option (BucketId × List BucketOp × PgLsn)
  | .delta b ops lsn => some (b, ops, lsn)
  | _ => none

def receive (s : Consumer) (msg : ServerMessage) : Consumer :=
  let answered := { s with
    client := (s.client.handleMessage msg).1
    sent := s.sent ++ (s.client.handleMessage msg).2.toList }
  match delta? msg with
  | none => answered
  | some (b, ops, lsn) =>
    { answered with
      pending := s.pending ++ s.app.onDelta b ops
      received :=
        if b.val ∈ s.client.subscribedBuckets then s.received ++ [(ops, lsn)] else s.received }

/-- The end of a transaction. Both applications drop a batch that was rolled back. -/
def settle (s : Consumer) (i : Nat) (batch : List BucketOp) (failed : Bool) : Consumer :=
  let settled := { s with pending := s.pending.eraseIdx i }
  if failed then settled
  else match applyOps s.db batch with
    | .error _ => settled
    | .ok db => { settled with db := db, applied := s.applied ++ batch }

def ensureSubscribed (client : SyncClient) (bucket : String) (subscribed : Bool) : SyncClient :=
  if subscribed then client else client.subscribe [bucket] none

/-- The API calls of each application; `list`, `get` and `write` of the transport are queries. -/
def step (s : Consumer) : ConsumerAction → Option Consumer
  | .frame msg => some (s.receive msg)
  | .settle i failed => s.pending[i]?.map fun batch => s.settle i batch failed
  | .subscribeBucket bucket resumeLsn =>
    match s.app with
    | .extension _ =>
      let buckets := s.client.subscribedBuckets
      some { s with client :=
        s.client.subscribe (if bucket ∈ buckets then buckets else buckets ++ [bucket]) resumeLsn }
    | .transport _ _ _ _ => none
  | .pause =>
    match s.app with
    | .extension _ => some { s with app := .extension true }
    | .transport _ _ _ _ => none
  | .resume =>
    match s.app with
    | .extension _ => some { s with app := .extension false }
    | .transport _ _ _ _ => none
  | .query =>
    match s.app with
    | .extension _ => none
    | .transport bucket table subscribed listeners =>
      some { s with
        client := ensureSubscribed s.client bucket subscribed
        app := .transport bucket table true listeners }
  | .addListener =>
    match s.app with
    | .extension _ => none
    | .transport bucket table subscribed listeners =>
      some { s with
        client := ensureSubscribed s.client bucket subscribed
        app := .transport bucket table true (listeners + 1) }
  | .removeListener =>
    match s.app with
    | .extension _ => none
    | .transport bucket table subscribed listeners =>
      if listeners = 0 then none
      else some { s with app := .transport bucket table subscribed (listeners - 1) }

/-- The LSNs that the client has acknowledged, or would resume from. -/
def ackedLsns (s : Consumer) : List PgLsn :=
  s.client.lastLsn.toList ++ s.sent.filterMap fun msg =>
    match msg with
    | .ack lsn => some lsn
    | _ => none

/-- The op is in the local database, or its transaction is still to end. -/
def Held (s : Consumer) (op : BucketOp) : Prop :=
  op ∈ s.applied ∨ ∃ batch ∈ s.pending, op ∈ batch

/-- No op of a subscribed bucket is acknowledged and then dropped. -/
def AckedApplied (s : Consumer) : Prop :=
  ∀ lsn ∈ s.ackedLsns, ∀ delta ∈ s.received, delta.2 ≤ lsn → ∀ op ∈ delta.1, s.Held op

end Consumer

/-- The handlers pass the ops of this kind to `applyOps`: the extension is not paused, or the
transport has a change listener and the op is for its table. -/
def App.Takes : App → BucketId → BucketOp → Prop
  | .extension paused, _, _ => paused = false
  | .transport bucket table _ listeners, b, op =>
    b.val = bucket ∧ op.entityType = table ∧ 0 < listeners

namespace Consumer

/-- A Delta of a subscribed bucket brings no new op that the handlers leave aside, and a
transaction is rolled back only if all ops it was to apply for a subscribed bucket are applied, or
pending in another one. -/
def Applying (s : Consumer) : ConsumerAction → Prop
  | .frame msg => ∀ d ∈ delta? msg, d.1.val ∈ s.client.subscribedBuckets →
      ∀ op ∈ d.2.1, s.Held op ∨ s.app.Takes d.1 op
  | .settle i failed => ∀ batch ∈ s.pending[i]?, (failed = true ∨ ¬ Applicable s.db batch) →
      ∀ op ∈ batch, (∃ delta ∈ s.received, op ∈ delta.1) →
        { s with pending := s.pending.eraseIdx i }.Held op
  | .subscribeBucket _ _ | .pause | .resume | .query | .addListener | .removeListener => True

instance (s : Consumer) (op : BucketOp) : Decidable (s.Held op) :=
  inferInstanceAs (Decidable (_ ∨ _))

instance (s : Consumer) : Decidable s.AckedApplied := List.decidableBAll _ s.ackedLsns

instance (app : App) (b : BucketId) (op : BucketOp) : Decidable (app.Takes b op) :=
  match app with
  | .extension _ => inferInstanceAs (Decidable (_ = false))
  | .transport _ _ _ _ => inferInstanceAs (Decidable (_ ∧ _ ∧ _))

instance (s : Consumer) (a : ConsumerAction) : Decidable (s.Applying a) :=
  match a with
  | .frame msg => inferInstanceAs (Decidable (∀ _ ∈ delta? msg, _))
  | .settle i _ => inferInstanceAs (Decidable (∀ _ ∈ s.pending[i]?, _))
  | .subscribeBucket _ _ | .pause | .resume | .query | .addListener | .removeListener =>
    inferInstanceAs (Decidable True)

def Acknowledged (s : Consumer) : Prop := ∀ delta ∈ s.received, .ack delta.2 ∈ s.sent

variable {s t : Consumer}

theorem mem_onDelta {app : App} {b : BucketId} {ops : List BucketOp} {op : BucketOp} :
    (∃ batch ∈ app.onDelta b ops, op ∈ batch) ↔ op ∈ ops ∧ app.Takes b op := by
  cases app with
  | extension paused => cases paused <;> simp [App.onDelta, App.Takes]
  | transport bucket table subscribed listeners =>
    simp only [App.onDelta, App.Takes]
    by_cases hskip : b.val ≠ bucket ∨ (ops.filter fun op => op.entityType = table) = []
    · rw [if_pos hskip]
      simp only [List.not_mem_nil, false_and, exists_false, false_iff]
      rintro ⟨hop, hbucket, htable, _⟩
      rcases hskip with hne | hnil
      · exact hne hbucket
      · exact absurd htable (by simpa using List.filter_eq_nil_iff.mp hnil op hop)
    · rw [if_neg hskip]
      simp only [not_or, not_not] at hskip
      simp only [List.mem_replicate, hskip.1, true_and]
      constructor
      · rintro ⟨_, ⟨hpos, rfl⟩, hop⟩
        obtain ⟨hmem, htable⟩ := List.mem_filter.mp hop
        exact ⟨hmem, by simpa using htable, by omega⟩
      · rintro ⟨hmem, htable, hpos⟩
        exact ⟨_, ⟨by omega, rfl⟩, List.mem_filter.mpr ⟨hmem, by simpa using htable⟩⟩

theorem ackedApplied_iff (h : s.Acknowledged) :
    s.AckedApplied ↔ ∀ delta ∈ s.received, ∀ op ∈ delta.1, s.Held op := by
  constructor
  · intro hacked delta hdelta
    have hlsn : delta.2 ∈ s.ackedLsns := by
      apply List.mem_append_right
      exact List.mem_filterMap.mpr ⟨_, h delta hdelta, rfl⟩
    exact hacked delta.2 hlsn delta hdelta (UInt64.le_refl _)
  · intro hheld lsn _ delta hdelta _
    exact hheld delta hdelta

theorem step_call {a : ConsumerAction} (hframe : ∀ msg, a ≠ .frame msg)
    (hsettle : ∀ i failed, a ≠ .settle i failed) (h : s.step a = some t) :
    t.pending = s.pending ∧ t.applied = s.applied ∧ t.received = s.received ∧ t.sent = s.sent := by
  cases a with
  | frame msg => exact absurd rfl (hframe msg)
  | settle i failed => exact absurd rfl (hsettle i failed)
  | subscribeBucket | pause | resume | query | addListener =>
    cases happ : s.app <;> simp only [step, happ] at h <;> cases h
    simp
  | removeListener =>
    cases happ : s.app with
    | extension paused => simp [step, happ] at h
    | transport bucket table subscribed listeners =>
      simp only [step, happ] at h
      split at h
      · cases h
      · cases h
        simp

theorem sent_settle (s : Consumer) (i : Nat) (batch : List BucketOp) (failed : Bool) :
    (s.settle i batch failed).sent = s.sent ∧
      (s.settle i batch failed).received = s.received := by
  rw [settle]
  split
  · simp
  · split <;> simp

theorem Acknowledged.step (h : s.Acknowledged) {a : ConsumerAction} (hstep : s.step a = some t) :
    t.Acknowledged := by
  cases a with
  | frame msg =>
    cases hstep
    intro delta hdelta
    cases msg with
    | delta b ops lsn =>
      simp only [receive, delta?, SyncClient.handleMessage, Option.toList_some] at hdelta ⊢
      by_cases hb : b.val ∈ s.client.subscribedBuckets
      · simp only [if_pos hb, List.mem_append, List.mem_singleton] at hdelta ⊢
        rcases hdelta with hold | rfl
        · exact Or.inl (h delta hold)
        · exact Or.inr rfl
      · rw [if_neg hb] at hdelta
        exact List.mem_append_left _ (h delta hdelta)
    | snapshotBegin | snapshotBatch | snapshotComplete | checkpoint | keepalive | error =>
      exact List.mem_append_left _ (h delta hdelta)
  | settle i failed =>
    obtain ⟨batch, _, rfl⟩ := Option.map_eq_some_iff.mp hstep
    rw [Acknowledged, (s.sent_settle i batch failed).1, (s.sent_settle i batch failed).2]
    exact h
  | subscribeBucket | pause | resume | query | addListener | removeListener =>
    obtain ⟨_, _, hreceived, hsent⟩ := step_call (by simp) (by simp) hstep
    rw [Acknowledged, hreceived, hsent]
    exact h

theorem held_receive_delta {b : BucketId} {ops : List BucketOp} {lsn : PgLsn} {op : BucketOp} :
    (s.receive (.delta b ops lsn)).Held op ↔ s.Held op ∨ op ∈ ops ∧ s.app.Takes b op := by
  simp only [Held, receive, delta?, List.mem_append, or_and_right, exists_or, mem_onDelta]
  rw [or_assoc]

theorem receive_iff (hacked : s.Acknowledged) (h : s.AckedApplied) (msg : ServerMessage) :
    (s.receive msg).AckedApplied ↔ s.Applying (.frame msg) := by
  have hacked' : (s.receive msg).Acknowledged := hacked.step (a := .frame msg) rfl
  rw [ackedApplied_iff hacked] at h
  rw [ackedApplied_iff hacked']
  cases msg with
  | delta b ops lsn =>
    simp only [held_receive_delta, Applying, delta?, Option.mem_some_iff, forall_eq']
    simp only [receive, delta?]
    by_cases hb : b.val ∈ s.client.subscribedBuckets
    · simp only [hb, if_true, forall_true_left, List.mem_append, List.mem_singleton]
      constructor
      · intro hall op hop
        exact (hall (ops, lsn) (Or.inr rfl) op hop).imp_right And.right
      · rintro hnew delta (hold | rfl) op hop
        · exact Or.inl (h delta hold op hop)
        · exact (hnew op hop).imp_right fun htakes => ⟨hop, htakes⟩
    · simp only [hb, if_false, false_implies, iff_true]
      intro delta hdelta op hop
      exact Or.inl (h delta hdelta op hop)
  | snapshotBegin | snapshotBatch | snapshotComplete | checkpoint | keepalive | error =>
    constructor
    · intro _ d hd
      cases hd
    · intro _
      exact h

theorem held_iff_erase {i : Nat} {batch : List BucketOp} (hbatch : s.pending[i]? = some batch)
    (op : BucketOp) :
    s.Held op ↔ { s with pending := s.pending.eraseIdx i }.Held op ∨ op ∈ batch := by
  obtain ⟨hi, rfl⟩ := List.getElem?_eq_some_iff.mp hbatch
  have hperm := (List.perm_cons_erase (List.getElem_mem hi)).trans
    ((List.erase_getElem hi).cons _)
  simp only [Held, hperm.mem_iff, List.mem_cons, exists_eq_or_imp]
  rw [or_assoc, or_comm (a := ∃ batch ∈ _, _)]

theorem held_settle (i : Nat) (batch : List BucketOp) (failed : Bool) (op : BucketOp) :
    (s.settle i batch failed).Held op ↔
      { s with pending := s.pending.eraseIdx i }.Held op ∨
        ((failed = false ∧ Applicable s.db batch) ∧ op ∈ batch) := by
  rw [settle]
  cases failed with
  | true => simp
  | false =>
    cases happly : applyOps s.db batch with
    | error e =>
      have hfails : ¬ Applicable s.db batch := by
        rw [← applyOps_isOk_iff]
        simp [happly]
      simp [hfails]
    | ok db =>
      have hok : Applicable s.db batch := applyOps_isOk_iff.mp ⟨db, happly⟩
      simp [Held, hok, or_right_comm]

theorem settle_iff (hacked : s.Acknowledged) (h : s.AckedApplied) {i : Nat}
    {batch : List BucketOp} (hbatch : s.pending[i]? = some batch) (failed : Bool) :
    (s.settle i batch failed).AckedApplied ↔ s.Applying (.settle i failed) := by
  have hacked' : (s.settle i batch failed).Acknowledged :=
    hacked.step (a := .settle i failed) (by rw [Consumer.step, hbatch, Option.map_some])
  rw [ackedApplied_iff hacked] at h
  rw [ackedApplied_iff hacked', (s.sent_settle i batch failed).2]
  simp only [held_settle, Applying, hbatch, Option.mem_some_iff, forall_eq']
  constructor
  · intro hall hfails op hop hreceived
    obtain ⟨delta, hdelta, hmem⟩ := hreceived
    rcases hall delta hdelta op hmem with hheld | hcommit
    · exact hheld
    · rcases hfails with htrue | hnot
      · simp [htrue] at hcommit
      · exact absurd hcommit.1.2 hnot
  · intro hkeep delta hdelta op hop
    rcases (held_iff_erase hbatch op).mp (h delta hdelta op hop) with hheld | hmem
    · exact Or.inl hheld
    · by_cases hcommit : failed = false ∧ Applicable s.db batch
      · exact Or.inr ⟨hcommit, hmem⟩
      · refine Or.inl (hkeep ?_ op hmem ⟨delta, hdelta, hop⟩)
        rw [not_and_or, Bool.not_eq_false] at hcommit
        exact hcommit

/-- In every run of either application, no op is acknowledged and then dropped, exactly if no step
drops one: Deltas come while the handlers take their ops, and no transaction with ops that are
nowhere else is rolled back. -/
theorem ackedApplied_iff_applying (app : App) (db : LocalDb) (as : List ConsumerAction) :
    Always step AckedApplied (start app db) as ↔ Meets step Applying (start app db) as := by
  apply always_iff_meets (J := fun s => s.Acknowledged ∧ s.AckedApplied) (E := fun _ _ => True)
  · intro s hs
    exact hs.2
  · intro s a t hs _ hstep
    cases a with
    | frame msg =>
      cases hstep
      exact receive_iff hs.1 hs.2 msg
    | settle i failed =>
      obtain ⟨batch, hbatch, rfl⟩ := Option.map_eq_some_iff.mp hstep
      exact settle_iff hs.1 hs.2 hbatch failed
    | subscribeBucket | pause | resume | query | addListener | removeListener =>
      have hframe := step_call (by simp) (by simp) hstep
      have hacked := (ackedApplied_iff hs.1).mp hs.2
      simp only [Applying, iff_true]
      rw [ackedApplied_iff (hs.1.step hstep), hframe.2.2.1]
      simpa only [Held, hframe.1, hframe.2.1] using hacked
  · intro s a t hs _ hstep ht
    exact ⟨hs.1.step hstep, ht⟩
  · exact meets_of_forall fun _ _ => trivial
  · simp [Acknowledged, AckedApplied, start]

private def entityDelta : ServerMessage :=
  .delta ⟨"user_entities"⟩ [⟨7, ⟨"user_entities"⟩, "entities", "a", .delete⟩] 7

private def noTables : LocalDb := fun _ => none

/-- A Delta that comes while the extension is paused, a Delta that comes before the transport has
a change listener, and a Delta whose transaction is rolled back: each is acknowledged, and its op
is nowhere. -/
theorem unapplied_deltas_acknowledged :
    (∃ t, run step (start (.extension false) noTables)
        [.subscribeBucket "user_entities" none, .pause, .frame entityDelta, .resume] = some t ∧
      t.sent = [.ack 7] ∧ ¬t.AckedApplied) ∧
    (∃ t, run step (start (.transport "user_entities" "entities" false 0) noTables)
        [.query, .frame entityDelta] = some t ∧
      t.sent = [.ack 7] ∧ ¬t.AckedApplied) ∧
    (∃ t, run step (start (.extension false) noTables)
        [.subscribeBucket "user_entities" none, .frame entityDelta, .settle 0 true] = some t ∧
      t.sent = [.ack 7] ∧ ¬t.AckedApplied) :=
  ⟨⟨_, rfl, rfl, by decide⟩, ⟨_, rfl, rfl, by decide⟩, ⟨_, rfl, rfl, by decide⟩⟩

end Consumer

end EntitySync.Client
