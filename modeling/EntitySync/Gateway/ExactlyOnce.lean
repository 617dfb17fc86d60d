import EntitySync.Gateway.Delivery
import EntitySync.Rules.Assigner

/-!
# Exactly-once delivery within a bucket

The last seen LSN of a bucket separates what was sent from what was not. For any number of
buckets and any acknowledgements nothing is sent twice; for a single bucket whose client
acknowledges only what it received, the sent ops are, after each poll, the log itself.
-/

namespace EntitySync.Gateway.Delivery

open Oplog (Partitions StoredOp)
open OrderedScan (Ordered)
open StepSystem

/-- The entries of `b` that a client resuming from `resumeLsn` has to be sent. -/
def owed (log : Partitions) (b : BucketId) (resumeLsn : Option PgLsn) : List (PgLsn × StoredOp) :=
  (log b).toList.filter fun e => decide (∀ r ∈ resumeLsn, r < e.1)

def covered (lastSeen : Option PgLsn) (es : List (PgLsn × StoredOp)) :
    List (PgLsn × StoredOp) :=
  es.filter fun e => decide (∃ m ∈ lastSeen, e.1 ≤ m)

private theorem mem_owed {log : Partitions} {b : BucketId} {resumeLsn : Option PgLsn}
    {e : PgLsn × StoredOp} :
    e ∈ owed log b resumeLsn ↔ (log b)[e.1]? = some e.2 ∧ ∀ r, resumeLsn = some r → r < e.1 := by
  rw [owed, List.mem_filter, decide_eq_true_eq]
  exact and_congr_left' Std.TreeMap.mem_toList_iff_getElem?_eq_some

theorem mem_covered {lastSeen : Option PgLsn} {es : List (PgLsn × StoredOp)}
    {e : PgLsn × StoredOp} :
    e ∈ covered lastSeen es ↔ e ∈ es ∧ ∃ m, lastSeen = some m ∧ e.1 ≤ m := by
  rw [covered, List.mem_filter, decide_eq_true_eq]
  rfl

private theorem ordered_owed (log : Partitions) (b : BucketId) (resumeLsn : Option PgLsn) :
    Ordered (owed log b resumeLsn) :=
  (OrderedScan.ordered_toList (log b)).filter _

/-- A session with the single bucket `b` has sent exactly the owed entries up to its last seen
LSN, which is the resume LSN or the LSN of an entry. -/
structure Exact (b : BucketId) (resumeLsn : Option PgLsn) (s : Delivery) : Prop where
  tracked : Tracked s
  single : s.session.authorizedBuckets.keys = [b]
  anchored : ∀ m, s.session.lastSeenLsn.lookup b = some m →
    resumeLsn = some m ∨ ∃ stored, (s.log b)[m]? = some stored
  resumed : ∀ r, resumeLsn = some r → ∃ m, s.session.lastSeenLsn.lookup b = some m ∧ r ≤ m
  sent : s.sentOps b =
    (covered (s.session.lastSeenLsn.lookup b) (owed s.log b resumeLsn)).map
      fun e => rewire (s.session.wireBucketId b) e.2.op

private theorem eq_of_authorized {s : Delivery} {b c : BucketId}
    (hsingle : s.session.authorizedBuckets.keys = [b]) (hc : c ∈ s.session.authorizedBuckets) :
    c = b := by
  have hmem : c ∈ s.session.authorizedBuckets.keys := hc
  rw [hsingle] at hmem
  exact List.mem_singleton.mp hmem

theorem exact_start {log : Partitions} (hlog : WellKeyed log)
    (assignments : List BucketAssignment) (requested : List String) {resumeLsn : Option PgLsn}
    (hresume : ∀ r ∈ resumeLsn, r < PgLsn.max) {b : BucketId}
    (hsingle : (authorize assignments requested).keys = [b]) :
    Exact b resumeLsn (start log assignments requested resumeLsn) := by
  have hmem : b ∈ (handshake assignments requested resumeLsn).authorizedBuckets := by
    change b ∈ (authorize assignments requested).keys
    rw [hsingle]
    exact List.mem_singleton_self b
  have hlookup : (handshake assignments requested resumeLsn).lastSeenLsn.lookup b = resumeLsn := by
    rw [lookup_lastSeen_handshake, if_pos hmem]
  refine ⟨tracked_start hlog assignments requested hresume, hsingle, ?_, ?_, ?_⟩
  · intro m hm
    exact Or.inl (hlookup.symm.trans hm)
  · intro r hr
    exact ⟨r, hlookup.trans hr, UInt64.le_refl _⟩
  · have hnone : covered resumeLsn (owed log b resumeLsn) = [] := by
      apply List.eq_nil_iff_forall_not_mem.mpr
      intro e he
      obtain ⟨howed, m, hm, hle⟩ := mem_covered.mp he
      have hlt := (mem_owed.mp howed).2 m hm
      exact absurd (UInt64.lt_of_lt_of_le hlt hle) (UInt64.lt_irrefl _)
    change [] = _
    rw [start, hlookup, hnone]
    rfl

private theorem Exact.append {b : BucketId} {resumeLsn : Option PgLsn} {s : Delivery}
    (h : Exact b resumeLsn s) (wall : UInt64) (c : BucketId) {op : BucketOp}
    (hmax : op.lsn < PgLsn.max) (hlast : ∀ e ∈ (s.log c).toList, e.1 < op.lsn) :
    Exact b resumeLsn { s with log := s.log.append wall c op.lsn op } := by
  have htracked := h.tracked.step (a := .append wall c op) hmax rfl
  by_cases hc : c = b
  · subst hc
    -- the new entry lies above the last seen LSN, or is not owed at all
    have hcovered : covered (s.session.lastSeenLsn.lookup c)
          (owed (s.log.append wall c op.lsn op) c resumeLsn) =
        covered (s.session.lastSeenLsn.lookup c) (owed s.log c resumeLsn) := by
      have hnew : covered (s.session.lastSeenLsn.lookup c)
          (List.filter (fun e => decide (∀ r ∈ resumeLsn, r < e.1))
            [(op.lsn, (⟨op, wall⟩ : StoredOp))]) = [] := by
        apply List.eq_nil_iff_forall_not_mem.mpr
        intro e he
        obtain ⟨hin, m, hm, hle⟩ := mem_covered.mp he
        rw [List.mem_filter, List.mem_singleton, decide_eq_true_eq] at hin
        rw [hin.1] at hle
        have hlt : m < op.lsn := by
          cases h.anchored m hm with
          | inl hr =>
            have hr := hin.2 m hr
            rwa [hin.1] at hr
          | inr hstored =>
            obtain ⟨stored, hget⟩ := hstored
            exact hlast (m, stored) (Std.TreeMap.mem_toList_iff_getElem?_eq_some.mpr hget)
        exact UInt64.lt_irrefl _ (UInt64.lt_of_lt_of_le hlt hle)
      rw [owed, Partitions.toList_append_last hlast, List.filter_append, covered,
        List.filter_append]
      rw [covered] at hnew
      rw [hnew, List.append_nil]
      rfl
    refine ⟨htracked, h.single, ?_, h.resumed, ?_⟩
    · intro m hm
      cases h.anchored m hm with
      | inl hr => exact Or.inl hr
      | inr hstored => exact Or.inr (Partitions.exists_append hstored wall c op.lsn op)
    · change s.sentOps c = _
      rw [hcovered]
      exact h.sent
  · have hlog : s.log.append wall c op.lsn op b = s.log b := by
      rw [Partitions.append, if_neg (Ne.symm hc)]
    have howed : owed (s.log.append wall c op.lsn op) b resumeLsn = owed s.log b resumeLsn := by
      rw [owed, hlog, owed]
    refine ⟨htracked, h.single, ?_, h.resumed, ?_⟩
    · intro m hm
      have hanchor := h.anchored m hm
      rwa [← hlog] at hanchor
    · change s.sentOps b = List.map _ (covered _ (owed (s.log.append wall c op.lsn op) b _))
      rw [howed]
      exact h.sent

private theorem Exact.receive {b : BucketId} {resumeLsn : Option PgLsn} {s : Delivery}
    (h : Exact b resumeLsn s) {msg : ClientMessage} (hmsg : s.Faithful (.receive msg)) :
    (s.session.handleClientMessage msg).lastSeenLsn.lookup b =
      s.session.lastSeenLsn.lookup b := by
  cases msg with
  | ack lsn =>
    obtain ⟨frame, hframe, hlsn⟩ := hmsg
    obtain ⟨m, hm, hle⟩ := h.tracked.deltas frame hframe lsn hlsn
    have hb : frame.1 = b := eq_of_authorized h.single (h.tracked.authorized frame.1 m hm)
    rw [hb] at hm
    have hkeep : ¬m < lsn := UInt64.not_lt.mpr hle
    rw [Session.handleClientMessage, Session.lookup_ack, hm, Option.map_some, if_neg hkeep]
  | write entityType entityId op => rfl
  | ping => rfl
  | subscribe buckets token resumeLsn version => rfl

/-- A Delta extends the covered entries to its own LSN. -/
private theorem Exact.covered_append {b : BucketId} {resumeLsn : Option PgLsn} {s : Delivery}
    (h : Exact b resumeLsn s) {m : PgLsn}
    (hfrom : s.session.scanFrom b ≤ m)
    (hmax : ∀ l stored, (s.log b)[l]? = some stored → s.session.scanFrom b ≤ l → l ≤ m) :
    covered (s.session.lastSeenLsn.lookup b) (owed s.log b resumeLsn) ++
        s.log.since b (s.session.scanFrom b) =
      covered (some m) (owed s.log b resumeLsn) := by
  have hscan (l : PgLsn) := Session.scanFrom_le_iff (l := l) (h.tracked.bounded b)
  apply Ordered.eq_of_mem_iff
  · refine List.pairwise_append.mpr
      ⟨(ordered_owed s.log b resumeLsn).filter _, OrderedScan.ordered_range _ _ _, ?_⟩
    intro x hx y hy
    obtain ⟨_, old, hold, hle⟩ := mem_covered.mp hx
    have hlt := (hscan y.1).mp (Partitions.mem_since.mp hy).2.1 old hold
    exact Std.compare_eq_lt.mpr (UInt64.lt_of_le_of_lt hle hlt)
  · exact (ordered_owed s.log b resumeLsn).filter _
  · intro e
    rw [List.mem_append, mem_covered, mem_covered, mem_owed]
    constructor
    · intro he
      cases he with
      | inl hold =>
        obtain ⟨howed, old, hold, hle⟩ := hold
        have hlt := (hscan m).mp hfrom old hold
        exact ⟨howed, m, rfl, UInt64.le_trans hle (UInt64.le_of_lt hlt)⟩
      | inr hnew =>
        have hin := Partitions.mem_since.mp (show (e.1, e.2) ∈ _ from hnew)
        refine ⟨⟨hin.1, ?_⟩, m, rfl, hmax e.1 e.2 hin.1 hin.2.1⟩
        intro r hr
        obtain ⟨old, hold, hle⟩ := h.resumed r hr
        exact UInt64.lt_of_le_of_lt hle ((hscan e.1).mp hin.2.1 old hold)
    · intro he
      obtain ⟨howed, _, _, _⟩ := he
      by_cases hle : s.session.scanFrom b ≤ e.1
      · refine Or.inr (Partitions.mem_since.mpr ⟨howed.1, hle, ?_⟩)
        exact h.tracked.keyed.lt_max howed.1
      · refine Or.inl ⟨howed, ?_⟩
        exact h.tracked.seen_of_not_scanned hle

theorem Exact.scan {b : BucketId} {resumeLsn : Option PgLsn} {s t : Delivery}
    (h : Exact b resumeLsn s) (hstep : s.step .scan = some t) :
    Exact b resumeLsn t ∧ ∀ e ∈ owed t.log b resumeLsn,
      ∃ m, t.session.lastSeenLsn.lookup b = some m ∧ e.1 ≤ m := by
  have htracked : Tracked t := h.tracked.step (a := .scan) trivial hstep
  obtain ⟨c, rest, hscanning, hlog, _, hcase⟩ := scan_cases h.tracked.keyed hstep
  have hc : c = b := eq_of_authorized h.single (h.tracked.scanning c (by simp [hscanning]))
  subst hc
  have hresumed (r : PgLsn) (hr : resumeLsn = some r) :=
    hcase.lookup_mono h.tracked (h.resumed r hr)
  have hall : ∀ e ∈ owed t.log c resumeLsn,
      ∃ m, t.session.lastSeenLsn.lookup c = some m ∧ e.1 ≤ m := by
    intro e he
    rw [hlog] at he
    exact hcase.all_seen h.tracked (mem_owed.mp he).1
  refine ⟨⟨htracked, hcase.authorized ▸ h.single, ?_, hresumed, ?_⟩, hall⟩
  · intro m hm
    rw [hlog]
    cases hcase with
    | idle _ hsession _ => exact h.anchored m (hsession ▸ hm)
    | delta new hlast _ hsession _ =>
      rw [lookup_of_delta hsession, if_pos rfl, Option.some.injEq] at hm
      obtain ⟨stored, hget, _⟩ := hlast
      exact Or.inr ⟨stored, hm ▸ hget⟩
  · rw [hcase.wire, hlog]
    cases hcase with
    | idle _ hsession hsent =>
      rw [sentOps, hsent, hsession]
      exact h.sent
    | delta m hlast hmax hsession hsent =>
      obtain ⟨_, _, hfrom⟩ := hlast
      rw [sentOps_of_delta hsent, if_pos rfl, deltaOps, lookup_of_delta hsession, if_pos rfl,
        ← h.covered_append hfrom hmax, List.map_append, ← h.sent, Partitions.drainSince,
        List.map_map]
      rfl

theorem Exact.step {b : BucketId} {resumeLsn : Option PgLsn} {s t : Delivery}
    {a : DeliveryAction} (h : Exact b resumeLsn s) (ha : s.Faithful a)
    (hstep : s.step a = some t) : Exact b resumeLsn t := by
  have htracked : Tracked t := h.tracked.step (h.tracked.bounded_of_faithful ha) hstep
  cases a with
  | append wall c op =>
    cases hstep
    exact h.append wall c ha.1 ha.2
  | compact cutoff => exact absurd ha id
  | startPoll order =>
    rw [Delivery.step] at hstep
    split at hstep
    next =>
      cases hstep
      exact ⟨htracked, h.single, h.anchored, h.resumed, h.sent⟩
    next => cases hstep
  | scan => exact (h.scan hstep).1
  | receive msg =>
    rw [Delivery.step] at hstep
    split at hstep
    next =>
      cases hstep
      have hkeep := h.receive ha
      have hauth := s.session.authorizedBuckets_handleClientMessage msg
      refine ⟨htracked, ?_, ?_, ?_, ?_⟩
      · exact hauth ▸ h.single
      · intro m hm
        exact h.anchored m (hkeep ▸ hm)
      · intro r hr
        exact hkeep.symm ▸ h.resumed r hr
      · have hwire : (s.session.handleClientMessage msg).wireBucketId b =
            s.session.wireBucketId b := by
          rw [Session.wireBucketId, hauth, Session.wireBucketId]
        change s.sentOps b = _
        rw [hkeep, hwire]
        exact h.sent
    next => cases hstep

theorem Exact.sentOps_of_covered {b : BucketId} {resumeLsn : Option PgLsn} {s : Delivery}
    (h : Exact b resumeLsn s)
    (hall : ∀ e ∈ owed s.log b resumeLsn, ∃ m, s.session.lastSeenLsn.lookup b = some m ∧ e.1 ≤ m) :
    s.sentOps b = (owed s.log b resumeLsn).map
      fun e => rewire (s.session.wireBucketId b) e.2.op := by
  have hcovered : covered (s.session.lastSeenLsn.lookup b) (owed s.log b resumeLsn) =
      owed s.log b resumeLsn := by
    rw [covered, List.filter_eq_self]
    intro e he
    exact decide_eq_true (hall e he)
  rw [h.sent, hcovered]

/-- Exactly-once delivery. In every run with LSNs below `u64::MAX` the LSNs sent for a bucket are
strictly increasing, so no op is sent twice. If the session has one bucket, the router appends
in increasing order, nothing is compacted and only received Deltas are acknowledged, then a poll
leaves as sent exactly the ops of the log above the resume LSN, in order, under the bucket's
client-facing name. -/
theorem delivers_exactly_once {log : Partitions} (hlog : WellKeyed log)
    (assignments : List BucketAssignment) (requested : List String) {resumeLsn : Option PgLsn}
    (hresume : ∀ r ∈ resumeLsn, r < PgLsn.max) {actions : List DeliveryAction} {t : Delivery}
    (hbounded : Meets step Bounded (start log assignments requested resumeLsn) actions)
    (hrun : run step (start log assignments requested resumeLsn) actions = some t) :
    (∀ b, (t.sentOps b).Pairwise fun x y => x.lsn < y.lsn) ∧
    ∀ b, (authorize assignments requested).keys = [b] →
      Meets step Faithful (start log assignments requested resumeLsn) actions →
      ∀ u, t.step .scan = some u →
        u.sentOps b = (owed u.log b resumeLsn).map
          fun e => rewire (u.session.wireBucketId b) e.2.op := by
  constructor
  · intro b
    have htracked : Tracked t := hbounded.invariant (fun s a t hs ha hstep => hs.step ha hstep)
      (tracked_start hlog assignments requested hresume) hrun
    exact htracked.increasing b
  · intro b hsingle hfaithful u hscan
    have hexact : Exact b resumeLsn t := hfaithful.invariant
      (fun s a t hs ha hstep => hs.step ha hstep)
      (exact_start hlog assignments requested hresume hsingle) hrun
    have hafter := hexact.scan hscan
    exact hafter.1.sentOps_of_covered hafter.2

private def ownerBucket : BucketId := ⟨"user_entities:user_id=\"42\""⟩

private def ownerOp (lsn : PgLsn) : BucketOp := ⟨lsn, ownerBucket, "entities", "a", .delete⟩

private def twoPolls : List DeliveryAction :=
  [.append 0 ownerBucket (ownerOp 3), .startPoll [ownerBucket], .scan, .receive (.ack 3),
    .append 0 ownerBucket (ownerOp 5), .startPoll [ownerBucket]]

theorem delivers_exactly_once_two_polls :
    ∃ t u, run step (start Partitions.empty [Rules.ownerAssignment "42"] ["user_entities"] none)
        twoPolls = some t ∧ t.step .scan = some u ∧
      u.sentOps ownerBucket = (owed u.log ownerBucket none).map
        fun e => rewire (u.session.wireBucketId ownerBucket) e.2.op := by
  refine ⟨_, _, rfl, rfl, ?_⟩
  have hbounded : Meets step Bounded
      (start Partitions.empty [Rules.ownerAssignment "42"] ["user_entities"] none) twoPolls := by
    decide
  exact (delivers_exactly_once Partitions.keyedBy_empty _ _ (by decide) hbounded rfl).2 ownerBucket
    (by decide) (by decide) _ rfl

end EntitySync.Gateway.Delivery
