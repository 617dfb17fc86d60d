import EntitySync.Gateway.ExactlyOnce
import EntitySync.Router.FanOut

/-!
# Delivery while events are being routed

A session polls the op log while append tasks write to it. `Router.FanOut` says in which order the
appends of a bucket come, `Gateway.ExactlyOnce` what a session sends of a log that grows in this
order; together they say what a client has been sent of the events of the broker. An event whose
bucket is affected twice is appended twice, which only changes the time of the stored op, so the
session is compared with one that reads a log without the second append.
-/

namespace EntitySync.System

open Gateway (Delivery DeliveryAction authorize handshake rewire)
open Gateway.Delivery (WellKeyed Exact owed)
open Oplog (Partitions StoredOp)
open Router (FanOut FanOutAction)
open StepSystem

structure ServerSession where
  router : FanOut
  delivery : Delivery

inductive ServerSessionAction where
  | router (a : FanOutAction)
  | startPoll (order : List BucketId)
  | scan
  | receive (msg : ClientMessage)

namespace ServerSession

def start (router : FanOut) (assignments : List BucketAssignment) (requested : List String)
    (resumeLsn : Option PgLsn) : ServerSession :=
  ⟨router, .start router.pipeline.log assignments requested resumeLsn⟩

/-- The session reads the log that the append tasks write. -/
def step (s : ServerSession) : ServerSessionAction → Option ServerSession
  | .router a =>
    (s.router.step a).map fun router =>
      ⟨router, { s.delivery with log := router.pipeline.log }⟩
  | .startPoll order => (s.delivery.step (.startPoll order)).map fun d => { s with delivery := d }
  | .scan => (s.delivery.step .scan).map fun d => { s with delivery := d }
  | .receive msg => (s.delivery.step (.receive msg)).map fun d => { s with delivery := d }

/-- Events are published in turn, and the client acknowledges only LSNs of Deltas it was sent. -/
def Faithful (s : ServerSession) : ServerSessionAction → Prop
  | .router a => s.router.InTurn a
  | .receive msg => s.delivery.Faithful (.receive msg)
  | .startPoll _ | .scan => True

instance (s : ServerSession) (a : ServerSessionAction) : Decidable (s.Faithful a) :=
  match a with
  | .router a => inferInstanceAs (Decidable (s.router.InTurn a))
  | .receive msg => inferInstanceAs (Decidable (s.delivery.Faithful (.receive msg)))
  | .startPoll _ | .scan => isTrue trivial

def SameOps (ps qs : Partitions) : Prop :=
  ∀ (b : BucketId) (l : PgLsn), (ps b)[l]?.map StoredOp.op = (qs b)[l]?.map StoredOp.op

theorem SameOps.append {ps qs : Partitions} (h : SameOps ps qs) (now : UInt64) (b : BucketId)
    (lsn : PgLsn) (op : BucketOp) : SameOps (ps.append now b lsn op) (qs.append now b lsn op) := by
  intro c l
  rw [Partitions.getElem?_append, Partitions.getElem?_append]
  split
  next => rfl
  next => exact h c l

theorem SameOps.append_right {ps qs : Partitions} (h : SameOps ps qs) (now : UInt64) {b : BucketId}
    {lsn : PgLsn} {op : BucketOp} (hop : (qs b)[lsn]?.map StoredOp.op = some op) :
    SameOps ps (qs.append now b lsn op) := by
  intro c l
  rw [Partitions.getElem?_append]
  split
  next heq => rw [h, heq.1, heq.2, hop, Option.map_some]
  next => exact h c l

theorem SameOps.exists_of_stored {ps qs : Partitions} (h : SameOps ps qs) {b : BucketId}
    {l : PgLsn} {stored : StoredOp} (hget : (ps b)[l]? = some stored) :
    ∃ other, (qs b)[l]? = some other ∧ other.op = stored.op := by
  have hsame := h b l
  rw [hget, Option.map_some] at hsame
  exact Option.map_eq_some_iff.mp hsame.symm

theorem step_withLog {d e : Delivery} {log : Partitions} (h : SameOps log d.log)
    {a : DeliveryAction}
    (ha : (∃ order, a = .startPoll order) ∨ a = .scan ∨ ∃ msg, a = .receive msg)
    (hstep : d.step a = some e) :
    { d with log := log }.step a = some { e with log := log } ∧ e.log = d.log := by
  rcases ha with ⟨order, rfl⟩ | rfl | ⟨msg, rfl⟩
  · rw [Delivery.step] at hstep ⊢
    split at hstep
    next hcond =>
      cases hstep
      exact ⟨if_pos hcond, rfl⟩
    next => cases hstep
  · rw [Delivery.step] at hstep ⊢
    cases hscanning : d.scanning with
    | nil =>
      rw [hscanning] at hstep
      cases hstep
    | cons b rest =>
      rw [hscanning] at hstep
      cases hstep
      have hdrain := Partitions.drainSince_congr (h b) (d.session.scanFrom b)
      simp only [hdrain, and_self]
  · rw [Delivery.step] at hstep ⊢
    split at hstep
    next hcond =>
      cases hstep
      exact ⟨if_pos hcond, rfl⟩
    next => cases hstep

/-- The router appends in order, and the session has sent exactly what it owes of a log with the
same ops. -/
structure Serves (b : BucketId) (resumeLsn : Option PgLsn) (s : ServerSession) : Prop where
  appending : s.router.Appending
  shared : s.delivery.log = s.router.pipeline.log
  exact : ∃ log, SameOps log s.delivery.log ∧ Exact b resumeLsn { s.delivery with log := log }

theorem wellKeyed_of_appending {router : FanOut} (h : router.Appending) :
    WellKeyed router.pipeline.log :=
  h.stored.imp fun _ _ hpassed => UInt64.lt_of_lt_of_le hpassed.1 (PgLsn.le_max _)

theorem serves_start {router : FanOut} (h : router.Appending)
    (assignments : List BucketAssignment) (requested : List String) {resumeLsn : Option PgLsn}
    (hresume : ∀ r ∈ resumeLsn, r < PgLsn.max) {b : BucketId}
    (hsingle : (authorize assignments requested).keys = [b]) :
    Serves b resumeLsn (start router assignments requested resumeLsn) :=
  ⟨h, rfl, router.pipeline.log, fun _ _ => rfl,
    Delivery.exact_start (wellKeyed_of_appending h) assignments requested hresume hsingle⟩

variable {b : BucketId} {resumeLsn : Option PgLsn} {s t : ServerSession}

theorem Serves.session (h : Serves b resumeLsn s) {a : DeliveryAction} {d : Delivery}
    (ha : (∃ order, a = .startPoll order) ∨ a = .scan ∨ ∃ msg, a = .receive msg)
    (hfaithful : s.delivery.Faithful a) (hstep : s.delivery.step a = some d) :
    Serves b resumeLsn { s with delivery := d } := by
  obtain ⟨log, hsame, hexact⟩ := h.exact
  obtain ⟨hcopy, hlog⟩ := step_withLog hsame ha hstep
  have hkeep : { s.delivery with log := log }.Faithful a := by
    rcases ha with ⟨order, rfl⟩ | rfl | ⟨msg, rfl⟩
    · trivial
    · trivial
    · cases msg with
      | ack lsn => exact hfaithful
      | write _ _ _ | ping | subscribe _ _ _ _ => trivial
  refine ⟨h.appending, hlog.trans h.shared, log, ?_, hexact.step hkeep hcopy⟩
  rw [hlog]
  exact hsame

theorem Serves.append (h : Serves b resumeLsn s) {op : BucketOp} (hop : op ∈ s.router.pending)
    (wall : UInt64) :
    ∃ log, SameOps log (s.delivery.log.append wall op.bucketId op.lsn op) ∧
      Exact b resumeLsn { s.delivery with log := log } := by
  obtain ⟨log, hsame, hexact⟩ := h.exact
  have hlast := h.appending.last op hop
  rw [← h.shared] at hlast
  cases hget : (s.delivery.log op.bucketId)[op.lsn]? with
  | some stored =>
    -- the op is there already
    have hstored : stored.op = op := by
      cases hlast op.lsn stored hget with
      | inl hlt => exact absurd hlt (UInt64.lt_irrefl _)
      | inr heq => exact heq.2
    refine ⟨log, hsame.append_right wall ?_, hexact⟩
    rw [hget, Option.map_some, hstored]
  | none =>
    have hmax : op.lsn < PgLsn.max :=
      UInt64.lt_of_lt_of_le (h.appending.pending op hop).1 (PgLsn.le_max _)
    have habove : ∀ e ∈ (log op.bucketId).toList, e.1 < op.lsn := by
      intro e he
      obtain ⟨other, hother, _⟩ :=
        hsame.exists_of_stored (Std.TreeMap.mem_toList_iff_getElem?_eq_some.mp he)
      cases hlast e.1 other hother with
      | inl hlt => exact hlt
      | inr heq =>
        rw [heq.1, hget] at hother
        cases hother
    refine ⟨log.append wall op.bucketId op.lsn op, hsame.append wall _ _ _, ?_⟩
    exact hexact.step (a := .append wall op.bucketId op) ⟨hmax, habove⟩ rfl

theorem Serves.router (h : Serves b resumeLsn s) {a : FanOutAction} {router : FanOut}
    (hturn : s.router.InTurn a) (hstep : s.router.step a = some router) :
    Serves b resumeLsn ⟨router, { s.delivery with log := router.pipeline.log }⟩ := by
  refine ⟨(h.appending.step hturn hstep).1, rfl, ?_⟩
  have hkept (hlog : router.pipeline.log = s.router.pipeline.log) :
      ∃ log, SameOps log router.pipeline.log ∧
        Exact b resumeLsn { s.delivery with log := log } := by
    rw [hlog, ← h.shared]
    exact h.exact
  cases a with
  | transport a =>
    obtain ⟨ha, q, hq, rfl⟩ := FanOut.step_transport_eq_some.mp hstep
    apply hkept
    change q.log = _
    rw [Router.Pipeline.eq_withLog_of_step ha hq]
    rfl
  | spawn assigner now =>
    obtain ⟨_, _, _, _, rfl⟩ := FanOut.step_spawn_eq_some.mp hstep
    exact hkept rfl
  | append i wall failed =>
    obtain ⟨r, op, hr, hop, rfl⟩ := FanOut.step_append_eq_some.mp hstep
    cases failed with
    | true => exact hkept rfl
    | false =>
      have hmem : op ∈ s.router.pending := by
        rw [FanOut.pending_of_routing hr]
        exact (FanOut.perm_ended hop).mem_iff.mp List.mem_cons_self
      have happend := h.append hmem wall
      rwa [h.shared] at happend
  | join =>
    obtain ⟨_, _, _, rfl⟩ := FanOut.step_join_eq_some.mp hstep
    exact hkept rfl

theorem Serves.step {a : ServerSessionAction} (h : Serves b resumeLsn s) (ha : s.Faithful a)
    (hstep : s.step a = some t) : Serves b resumeLsn t := by
  cases a with
  | router a =>
    obtain ⟨router, hrouter, rfl⟩ := Option.map_eq_some_iff.mp hstep
    exact h.router ha hrouter
  | startPoll order =>
    obtain ⟨d, hd, rfl⟩ := Option.map_eq_some_iff.mp hstep
    exact h.session (Or.inl ⟨order, rfl⟩) trivial hd
  | scan =>
    obtain ⟨d, hd, rfl⟩ := Option.map_eq_some_iff.mp hstep
    exact h.session (Or.inr (Or.inl rfl)) trivial hd
  | receive msg =>
    obtain ⟨d, hd, rfl⟩ := Option.map_eq_some_iff.mp hstep
    exact h.session (Or.inr (Or.inr ⟨msg, rfl⟩)) ha hd

/-- What a client is owed is what a scan from its resume LSN yields. -/
theorem owed_eq_since {log : Partitions} (hlog : WellKeyed log) (b : BucketId)
    (hresume : ∀ r ∈ resumeLsn, r < PgLsn.max) :
    owed log b resumeLsn = log.since b (resumeLsn.elim 0 (· + 1)) := by
  apply List.filter_congr
  intro e he
  have hmax := hlog.lt_max (Std.TreeMap.mem_toList_iff_getElem?_eq_some.mp he)
  have hrange (fromLsn : PgLsn) :
      ((compare fromLsn e.1).isLE && compare e.1 PgLsn.max == .lt) = decide (fromLsn ≤ e.1) := by
    rw [Std.compare_eq_lt.mpr hmax, Bool.eq_iff_iff]
    simp [Std.isLE_compare]
  rw [hrange]
  apply decide_eq_decide.mpr
  cases resumeLsn with
  | none => simp
  | some r => simp [PgLsn.succ_le_iff (hresume r rfl)]

/-- A session with one bucket that polls while events are published, received, queued and appended
by concurrent tasks: when the scan of a poll is over, it has sent exactly the ops that the log holds
above the resume LSN, each once and in LSN order, under the bucket's client-facing name. -/
theorem sends_log_while_routing {before : List FanOutAction} {router : FanOut}
    (hbefore : Meets FanOut.step FanOut.InTurn .init before)
    (hrouter : run FanOut.step .init before = some router)
    {assignments : List BucketAssignment} {requested : List String}
    (hsingle : (authorize assignments requested).keys = [b])
    (hresume : ∀ r ∈ resumeLsn, r < PgLsn.max) {actions : List ServerSessionAction}
    (hfaithful : Meets step Faithful (start router assignments requested resumeLsn) actions)
    (hs : run step (start router assignments requested resumeLsn) actions = some s)
    (ht : s.step .scan = some t) :
    t.delivery.sentOps b =
      (t.router.pipeline.log.drainSince b (resumeLsn.elim 0 (· + 1))).map
        (rewire (t.delivery.session.wireBucketId b)) := by
  have happending : router.Appending := hbefore.invariant
    (fun _ _ _ hI hG hstep => (hI.step hG hstep).1) FanOut.appending_init hrouter
  have hserves : Serves b resumeLsn s := hfaithful.invariant
    (fun _ _ _ hI hG hstep => hI.step hG hstep)
    (serves_start happending assignments requested hresume hsingle) hs
  obtain ⟨d, hd, rfl⟩ := Option.map_eq_some_iff.mp ht
  obtain ⟨log, hsame, hexact⟩ := hserves.exact
  obtain ⟨hcopy, hlog⟩ := step_withLog hsame (Or.inr (Or.inl rfl)) hd
  obtain ⟨hafter, hcovered⟩ := hexact.scan hcopy
  have hsent := hafter.sentOps_of_covered hcovered
  have hdrain := Partitions.drainSince_congr (hsame b) (resumeLsn.elim 0 (· + 1))
  rw [owed_eq_since hexact.tracked.keyed b hresume] at hsent
  change d.sentOps b = List.map _ (Partitions.drainSince s.router.pipeline.log b _)
  rw [← hserves.shared, ← hdrain, Partitions.drainSince, List.map_map]
  exact hsent

private def ownerBucket42 : BucketId := (Rules.ownerAssignment "42").bucketId

private def spawned : List FanOutAction :=
  [.transport (.take (some (Router.ownedInsert "a" "42"))), .transport (.send 0),
    .transport .receive, .transport .enqueue, .spawn (Rules.cachedOwner "42") 0]

private def spawnedRouter : FanOut := (run FanOut.step .init spawned).get rfl

private def opened : ServerSession :=
  start spawnedRouter [Rules.ownerAssignment "42"] ["user_entities"] none

/-- The session polls while the append of the event is pending; after the append it polls again,
acknowledges the Delta and starts a third poll. -/
private def pollsAround : List ServerSessionAction :=
  [.startPoll [ownerBucket42], .scan, .router (.append 0 7 false), .startPoll [ownerBucket42],
    .scan, .router .join, .receive (.ack 0), .startPoll [ownerBucket42]]

theorem sends_log_around_append : ∃ router s t, run FanOut.step .init spawned = some router ∧
    run step (start router [Rules.ownerAssignment "42"] ["user_entities"] none) pollsAround =
      some s ∧ s.step .scan = some t ∧
    t.delivery.sentOps ownerBucket42 = (t.router.pipeline.log.drainSince ownerBucket42 0).map
      (rewire (t.delivery.session.wireBucketId ownerBucket42)) := by
  have hturn : Meets FanOut.step FanOut.InTurn .init spawned := by decide
  have hrouter : run FanOut.step .init spawned = some spawnedRouter := rfl
  have hfaithful : Meets step Faithful opened pollsAround := by decide
  have hscans : (run step opened (pollsAround ++ [.scan])).isSome := by decide
  obtain ⟨t, ht⟩ := Option.isSome_iff_exists.mp hscans
  rw [run_append] at ht
  obtain ⟨s, hs, ht⟩ := Option.bind_eq_some_iff.mp ht
  obtain ⟨u, hu, hlast⟩ := run_cons_eq_some.mp ht
  cases hlast
  have hsingle : (authorize [Rules.ownerAssignment "42"] ["user_entities"]).keys =
      [ownerBucket42] := by decide
  have hresume : ∀ r ∈ (none : Option PgLsn), r < PgLsn.max := by decide
  have hsent := sends_log_while_routing hturn hrouter hsingle hresume hfaithful hs hu
  exact ⟨spawnedRouter, s, t, hrouter, hs, hu, hsent⟩

end ServerSession

end EntitySync.System
