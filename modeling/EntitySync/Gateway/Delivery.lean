import EntitySync.Gateway.Session
import EntitySync.Library.StepSystem

/-!
# Delta delivery

One session against the evolving op log: router appends and compactions may fall between any two
bucket scans of a running poll, client messages are handled between polls. `sent` records the
frames in order, each with the partition it was scanned from.
-/

namespace EntitySync.Gateway

open Oplog (Partitions StoredOp)
open StepSystem

structure Delivery where
  log : Partitions
  session : Session
  /-- The buckets that the running poll has still to scan. -/
  scanning : List BucketId
  sent : List (BucketId × ServerMessage)

inductive DeliveryAction where
  | append (wall : UInt64) (b : BucketId) (op : BucketOp)
  | compact (cutoff : UInt64)
  | startPoll (order : List BucketId)
  | scan
  | receive (msg : ClientMessage)

def deltaOps : ServerMessage → List BucketOp
  | .delta _ ops _ => ops
  | _ => []

def deltaLsn : ServerMessage → Option PgLsn
  | .delta _ _ lsn => some lsn
  | _ => none

namespace Delivery

def start (log : Partitions) (assignments : List BucketAssignment) (requested : List String)
    (resumeLsn : Option PgLsn) : Delivery where
  log := log
  session := handshake assignments requested resumeLsn
  scanning := []
  sent := []

/-- A poll visits the authorized buckets in some order. -/
def step (s : Delivery) : DeliveryAction → Option Delivery
  | .append wall b op => some { s with log := s.log.append wall b op.lsn op }
  | .compact cutoff => some { s with log := s.log.compact cutoff }
  | .startPoll order =>
    if s.scanning = [] ∧ order.Perm s.session.authorizedBuckets.keys then
      some { s with scanning := order }
    else none
  | .scan =>
    match s.scanning with
    | [] => none
    | b :: rest =>
      let result := s.session.deliver b (s.log.drainSince b (s.session.scanFrom b))
      some { s with
        session := result.2
        scanning := rest
        sent := s.sent ++ result.1.toList.map fun frame => (b, frame) }
  | .receive msg =>
    if s.scanning = [] then some { s with session := s.session.handleClientMessage msg }
    else none

theorem log_of_startPoll {s t : Delivery} {order : List BucketId}
    (h : s.step (.startPoll order) = some t) : t.log = s.log := by
  rw [step] at h
  split at h <;> cases h
  rfl

theorem log_of_scan {s t : Delivery} (h : s.step .scan = some t) : t.log = s.log := by
  rw [step] at h
  split at h <;> cases h
  rfl

theorem log_of_receive {s t : Delivery} {msg : ClientMessage} (h : s.step (.receive msg) = some t) :
    t.log = s.log := by
  rw [step] at h
  split at h <;> cases h
  rfl

def sentOps (s : Delivery) (b : BucketId) : List BucketOp :=
  s.sent.flatMap fun frame => if frame.1 = b then deltaOps frame.2 else []

def DeltaSent (s : Delivery) (lsn : PgLsn) : Prop :=
  ∃ frame ∈ s.sent, deltaLsn frame.2 = some lsn

instance (s : Delivery) (lsn : PgLsn) : Decidable (s.DeltaSent lsn) :=
  inferInstanceAs (Decidable (∃ _ ∈ s.sent, _))

/-- Every stored op carries the LSN of its key, below `u64::MAX`. -/
abbrev WellKeyed (log : Partitions) : Prop := log.KeyedBy fun _ op => op.lsn < PgLsn.max

theorem WellKeyed.lt_max {log : Partitions} (h : WellKeyed log) {b : BucketId} {l : PgLsn}
    {stored : Oplog.StoredOp} (hget : (log b)[l]? = some stored) : l < PgLsn.max := by
  obtain ⟨rfl, hlt⟩ := h b l stored hget
  exact hlt

theorem WellKeyed.mem_drainSince {log : Partitions} (h : WellKeyed log) {b : BucketId}
    {fromLsn : PgLsn} {op : BucketOp} :
    op ∈ log.drainSince b fromLsn ↔
      fromLsn ≤ op.lsn ∧ ∃ stored, (log b)[op.lsn]? = some stored ∧ stored.op = op := by
  rw [Partitions.KeyedBy.mem_drainSince h, and_congr_right_iff]
  intro _
  rw [and_iff_right_iff_imp]
  rintro ⟨stored, hget, _⟩
  exact h.lt_max hget

theorem WellKeyed.drainSince_sorted {log : Partitions} (h : WellKeyed log) (b : BucketId)
    (fromLsn : PgLsn) : (log.drainSince b fromLsn).Pairwise fun x y => x.lsn < y.lsn := by
  rw [Partitions.drainSince, List.pairwise_map]
  refine (log.since_sorted b fromLsn).imp_of_mem ?_
  intro x y hx hy hlt
  have hxkey := (h b x.1 x.2 (Partitions.mem_since.mp hx).1).1
  have hykey := (h b y.1 y.2 (Partitions.mem_since.mp hy).1).1
  rw [hxkey, hykey]
  exact hlt

/-- What a scan step can do to bucket `b`: nothing when no entry is new, and otherwise one Delta
with all new entries, whose LSN is the largest of them. -/
inductive Scanned (s t : Delivery) (b : BucketId) : Prop where
  | idle
    (hempty : ∀ l stored, (s.log b)[l]? = some stored → ¬s.session.scanFrom b ≤ l)
    (hsession : t.session = s.session)
    (hsent : t.sent = s.sent)
  | delta (m : PgLsn)
    (hlast : ∃ stored, (s.log b)[m]? = some stored ∧ s.session.scanFrom b ≤ m)
    (hmax : ∀ l stored, (s.log b)[l]? = some stored → s.session.scanFrom b ≤ l → l ≤ m)
    (hsession : t.session =
      { s.session with lastSeenLsn := s.session.lastSeenLsn.insert b m })
    (hsent : t.sent = s.sent ++ [(b, .delta (s.session.wireBucketId b)
      ((s.log.drainSince b (s.session.scanFrom b)).map (rewire (s.session.wireBucketId b))) m)])

theorem scan_cases {s t : Delivery} (hlog : WellKeyed s.log) (h : s.step .scan = some t) :
    ∃ b rest, s.scanning = b :: rest ∧ t.log = s.log ∧ t.scanning = rest ∧ Scanned s t b := by
  rw [step] at h
  split at h
  · cases h
  next b rest hscanning =>
    cases h
    refine ⟨b, rest, hscanning, rfl, rfl, ?_⟩
    by_cases hops : s.log.drainSince b (s.session.scanFrom b) = []
    · refine .idle ?_ ?_ ?_
      · intro l stored hget hle
        have hkey := (hlog b l stored hget).1
        have hmem : stored.op ∈ s.log.drainSince b (s.session.scanFrom b) :=
          hlog.mem_drainSince.mpr ⟨hkey.symm ▸ hle, stored, hkey.symm ▸ hget, rfl⟩
        rw [hops] at hmem
        cases hmem
      · simp [Session.deliver, hops]
      · simp [Session.deliver, hops]
    · have hspec := maxLsn_spec (s.session.scanFrom b) hops
      refine .delta (maxLsn (s.session.scanFrom b) (s.log.drainSince b (s.session.scanFrom b)))
        ?_ ?_ ?_ ?_
      · obtain ⟨op, hop, heq⟩ := hspec.2
        obtain ⟨hle, stored, hget, _⟩ := hlog.mem_drainSince.mp hop
        rw [heq] at hget hle
        exact ⟨stored, hget, hle⟩
      · intro l stored hget hle
        have hkey := (hlog b l stored hget).1
        have hmem : stored.op ∈ s.log.drainSince b (s.session.scanFrom b) :=
          hlog.mem_drainSince.mpr ⟨hkey.symm ▸ hle, stored, hkey.symm ▸ hget, rfl⟩
        exact hkey ▸ hspec.1 stored.op hmem
      · simp [Session.deliver, hops]
      · simp [Session.deliver, hops]

theorem sentOps_of_delta {s t : Delivery} {b : BucketId} {frame : ServerMessage}
    (h : t.sent = s.sent ++ [(b, frame)]) (c : BucketId) :
    t.sentOps c = s.sentOps c ++ if b = c then deltaOps frame else [] := by
  simp [sentOps, h]

theorem lookup_of_delta {s t : Delivery} {b : BucketId} {m : PgLsn}
    (h : t.session = { s.session with lastSeenLsn := s.session.lastSeenLsn.insert b m })
    (c : BucketId) : t.session.lastSeenLsn.lookup c =
      if c = b then some m else s.session.lastSeenLsn.lookup c := by
  rw [h]
  by_cases hc : c = b
  · rw [if_pos hc, hc, AList.lookup_insert]
  · rw [if_neg hc, AList.lookup_insert_ne hc]

def Bounded (_ : Delivery) : DeliveryAction → Prop
  | .append _ _ op => op.lsn < PgLsn.max
  | .receive (.ack lsn) => lsn < PgLsn.max
  | _ => True

/-- What the session knows about a bucket covers everything sent for it. -/
structure Tracked (s : Delivery) : Prop where
  keyed : WellKeyed s.log
  authorized : ∀ b m, s.session.lastSeenLsn.lookup b = some m → b ∈ s.session.authorizedBuckets
  scanning : ∀ b ∈ s.scanning, b ∈ s.session.authorizedBuckets
  bounded : ∀ b m, s.session.lastSeenLsn.lookup b = some m → m < PgLsn.max
  increasing : ∀ b, (s.sentOps b).Pairwise fun x y => x.lsn < y.lsn
  seen : ∀ b, ∀ op ∈ s.sentOps b, ∃ m, s.session.lastSeenLsn.lookup b = some m ∧ op.lsn ≤ m
  deltas : ∀ frame ∈ s.sent, ∀ lsn, deltaLsn frame.2 = some lsn →
    ∃ m, s.session.lastSeenLsn.lookup frame.1 = some m ∧ lsn ≤ m

theorem tracked_start {log : Partitions} (hlog : WellKeyed log)
    (assignments : List BucketAssignment) (requested : List String) {resumeLsn : Option PgLsn}
    (hresume : ∀ r ∈ resumeLsn, r < PgLsn.max) :
    Tracked (start log assignments requested resumeLsn) := by
  have hlookup (b : BucketId) (m : PgLsn)
      (h : (handshake assignments requested resumeLsn).lastSeenLsn.lookup b = some m) :
      b ∈ (handshake assignments requested resumeLsn).authorizedBuckets ∧ resumeLsn = some m := by
    rw [lookup_lastSeen_handshake] at h
    split at h
    next hmem => exact ⟨hmem, h⟩
    next => cases h
  refine ⟨hlog, fun b m h => (hlookup b m h).1, ?_, fun b m h => hresume m (hlookup b m h).2,
    fun b => List.Pairwise.nil, ?_, ?_⟩
  · intro b hb
    cases hb
  · intro b op hop
    cases hop
  · intro frame hframe
    cases hframe

private theorem Tracked.append {s : Delivery} (h : Tracked s) (wall : UInt64) (b : BucketId)
    {op : BucketOp} (hop : op.lsn < PgLsn.max) :
    Tracked { s with log := s.log.append wall b op.lsn op } :=
  ⟨h.keyed.append wall b hop, h.authorized, h.scanning, h.bounded, h.increasing, h.seen, h.deltas⟩

private theorem Tracked.compact {s : Delivery} (h : Tracked s) (cutoff : UInt64) :
    Tracked { s with log := s.log.compact cutoff } :=
  ⟨h.keyed.compact cutoff, h.authorized, h.scanning, h.bounded, h.increasing, h.seen, h.deltas⟩

theorem Tracked.startPoll {s : Delivery} (h : Tracked s) {order : List BucketId}
    (horder : order.Perm s.session.authorizedBuckets.keys) :
    Tracked { s with scanning := order } :=
  ⟨h.keyed, h.authorized, fun _ hb => AList.mem_keys.mpr (horder.mem_iff.mp hb), h.bounded,
    h.increasing, h.seen, h.deltas⟩

theorem Tracked.receive {s : Delivery} (h : Tracked s) (msg : ClientMessage)
    (hmsg : s.Bounded (.receive msg)) :
    Tracked { s with session := s.session.handleClientMessage msg } := by
  have hkeep := s.session.authorizedBuckets_handleClientMessage msg
  have hback (b : BucketId) (m' : PgLsn)
      (hm' : (s.session.handleClientMessage msg).lastSeenLsn.lookup b = some m') :
      ∃ m, s.session.lastSeenLsn.lookup b = some m ∧ (m' = m ∨ msg = .ack m') := by
    cases msg with
    | ack lsn =>
      obtain ⟨m, hm, hcase⟩ := Session.lookup_of_ack hm'
      exact ⟨m, hm, hcase.imp_right fun heq => by rw [heq]⟩
    | write | ping | subscribe => exact ⟨m', hm', Or.inl rfl⟩
  have hraise (b : BucketId) (l : PgLsn)
      (hl : ∃ m, s.session.lastSeenLsn.lookup b = some m ∧ l ≤ m) :
      ∃ m, (s.session.handleClientMessage msg).lastSeenLsn.lookup b = some m ∧ l ≤ m := by
    obtain ⟨m, hm, hle⟩ := hl
    obtain ⟨m', hm', hle'⟩ := Session.lookup_handleClientMessage hm
    exact ⟨m', hm', UInt64.le_trans hle hle'⟩
  refine ⟨h.keyed, ?_, ?_, ?_, h.increasing, fun b op hop => hraise b _ (h.seen b op hop),
    fun frame hframe lsn hlsn => hraise frame.1 _ (h.deltas frame hframe lsn hlsn)⟩
  · intro b m' hm'
    obtain ⟨m, hm, _⟩ := hback b m' hm'
    exact hkeep ▸ h.authorized b m hm
  · intro b hb
    exact hkeep ▸ h.scanning b hb
  · intro b m' hm'
    obtain ⟨m, hm, heq | hack⟩ := hback b m' hm'
    · exact heq ▸ h.bounded b m hm
    · subst hack
      exact hmsg

section
variable {s t : Delivery} {b c : BucketId}

theorem Scanned.authorized (hs : Scanned s t c) :
    t.session.authorizedBuckets = s.session.authorizedBuckets := by
  cases hs with
  | idle _ hsession _ => rw [hsession]
  | delta m _ _ hsession _ => rw [hsession]

theorem Scanned.wire (hs : Scanned s t c) :
    t.session.wireBucketId b = s.session.wireBucketId b := by
  rw [Session.wireBucketId, hs.authorized, Session.wireBucketId]

theorem Scanned.sent_mono (hs : Scanned s t c) {op : BucketOp} (hop : op ∈ s.sentOps b) :
    op ∈ t.sentOps b := by
  cases hs with
  | idle _ _ hsent => rwa [sentOps, hsent]
  | delta m _ _ _ hsent =>
    rw [sentOps_of_delta hsent]
    exact List.mem_append_left _ hop

/-- The scanned bucket's entries below the scan start are those already seen. -/
theorem Tracked.seen_of_not_scanned (h : Tracked s) {l : PgLsn}
    (hl : ¬s.session.scanFrom b ≤ l) :
    ∃ old, s.session.lastSeenLsn.lookup b = some old ∧ l ≤ old := by
  rw [Session.scanFrom_le_iff (h.bounded b)] at hl
  obtain ⟨old, hnot⟩ := Classical.not_forall.mp hl
  obtain ⟨hold, hnlt⟩ := Classical.not_imp.mp hnot
  exact ⟨old, hold, UInt64.not_lt.mp hnlt⟩

theorem Scanned.sent_or_seen (hs : Scanned s t c) (h : Tracked s) {l m : PgLsn}
    {stored : StoredOp} (hget : (s.log b)[l]? = some stored)
    (hm : t.session.lastSeenLsn.lookup b = some m) (hle : l ≤ m) :
    rewire (s.session.wireBucketId b) stored.op ∈ t.sentOps b ∨
      ∃ old, s.session.lastSeenLsn.lookup b = some old ∧ l ≤ old := by
  cases hs with
  | idle _ hsession _ => exact Or.inr ⟨m, hsession ▸ hm, hle⟩
  | delta new _ _ hsession hsent =>
    rw [lookup_of_delta hsession] at hm
    by_cases hbc : b = c
    · subst hbc
      by_cases hfrom : s.session.scanFrom b ≤ l
      · refine Or.inl ?_
        have hkey := (h.keyed b l stored hget).1
        rw [sentOps_of_delta hsent, if_pos rfl, deltaOps]
        exact List.mem_append_right _ (List.mem_map_of_mem (h.keyed.mem_drainSince.mpr
          ⟨hkey.symm ▸ hfrom, stored, hkey.symm ▸ hget, rfl⟩))
      · exact Or.inr (h.seen_of_not_scanned hfrom)
    · rw [if_neg hbc] at hm
      exact Or.inr ⟨m, hm, hle⟩

theorem Scanned.all_seen (hs : Scanned s t b) (h : Tracked s) {l : PgLsn} {stored : StoredOp}
    (hget : (s.log b)[l]? = some stored) :
    ∃ m, t.session.lastSeenLsn.lookup b = some m ∧ l ≤ m := by
  cases hs with
  | idle hempty hsession _ => exact hsession ▸ h.seen_of_not_scanned (hempty l stored hget)
  | delta m hlast hmax hsession _ =>
    refine ⟨m, by rw [lookup_of_delta hsession, if_pos rfl], ?_⟩
    by_cases hfrom : s.session.scanFrom b ≤ l
    · exact hmax l stored hget hfrom
    · obtain ⟨_, _, hle⟩ := hlast
      exact UInt64.le_trans (UInt64.le_of_lt (UInt64.not_le.mp hfrom)) hle

theorem Scanned.lookup_mono (hs : Scanned s t c) (h : Tracked s) {l : PgLsn}
    (hl : ∃ m, s.session.lastSeenLsn.lookup b = some m ∧ l ≤ m) :
    ∃ m, t.session.lastSeenLsn.lookup b = some m ∧ l ≤ m := by
  cases hs with
  | idle _ hsession _ => exact hsession ▸ hl
  | delta new hlast _ hsession _ =>
    obtain ⟨old, hold, hle⟩ := hl
    rw [lookup_of_delta hsession]
    by_cases hbc : b = c
    · rw [if_pos hbc]
      subst hbc
      obtain ⟨_, _, hfrom⟩ := hlast
      have hlt := (Session.scanFrom_le_iff (h.bounded b)).mp hfrom old hold
      exact ⟨new, rfl, UInt64.le_trans hle (UInt64.le_of_lt hlt)⟩
    · rw [if_neg hbc]
      exact ⟨old, hold, hle⟩

end

theorem Tracked.sent_lt {s : Delivery} (h : Tracked s) {b : BucketId} {op new : BucketOp}
    (hop : op ∈ s.sentOps b) (hnew : s.session.scanFrom b ≤ new.lsn) : op.lsn < new.lsn := by
  obtain ⟨m, hm, hle⟩ := h.seen b op hop
  have hlt := (Session.scanFrom_le_iff (h.bounded b)).mp hnew m hm
  exact UInt64.lt_of_le_of_lt hle hlt

private theorem Tracked.scan {s t : Delivery} (h : Tracked s) (hstep : s.step .scan = some t) :
    Tracked t := by
  obtain ⟨b, rest, hscanning, hlog, hrest, hcase⟩ := scan_cases h.keyed hstep
  have hscan : ∀ c ∈ t.scanning, c ∈ s.session.authorizedBuckets := by
    intro c hc
    rw [hrest] at hc
    exact h.scanning c (hscanning ▸ List.mem_cons_of_mem _ hc)
  have hgrow (c : BucketId) (l : PgLsn) :
      (∃ m, s.session.lastSeenLsn.lookup c = some m ∧ l ≤ m) →
        ∃ m, t.session.lastSeenLsn.lookup c = some m ∧ l ≤ m :=
    hcase.lookup_mono h
  cases hcase with
  | idle hempty hsession hsent =>
    refine ⟨hlog ▸ h.keyed, hsession ▸ h.authorized, hsession ▸ hscan, hsession ▸ h.bounded,
      ?_, ?_, ?_⟩
    · simpa only [sentOps, hsent] using h.increasing
    · simpa only [sentOps, hsent, hsession] using h.seen
    · simpa only [hsent, hsession] using h.deltas
  | delta m hlast hmax hsession hsent =>
    have hlookup := lookup_of_delta hsession
    have hauth : t.session.authorizedBuckets = s.session.authorizedBuckets := by rw [hsession]
    have hmbound : m < PgLsn.max := by
      obtain ⟨stored, hget, _⟩ := hlast
      exact h.keyed.lt_max hget
    have hops (c : BucketId) := sentOps_of_delta hsent c
    refine ⟨hlog ▸ h.keyed, ?_, hauth ▸ hscan, ?_, ?_, ?_, ?_⟩
    · intro c m' hm'
      rw [hauth]
      rw [hlookup] at hm'
      by_cases hc : c = b
      · rw [hc]
        exact h.scanning b (hscanning ▸ List.mem_cons_self)
      · rw [if_neg hc] at hm'
        exact h.authorized c m' hm'
    · intro c m' hm'
      rw [hlookup] at hm'
      by_cases hc : c = b
      · rw [if_pos hc] at hm'
        exact Option.some.inj hm' ▸ hmbound
      · rw [if_neg hc] at hm'
        exact h.bounded c m' hm'
    · intro c
      rw [hops]
      by_cases hc : b = c
      · subst hc
        rw [if_pos rfl, deltaOps]
        refine List.pairwise_append.mpr ⟨h.increasing b, ?_, ?_⟩
        · exact List.pairwise_map.mpr (h.keyed.drainSince_sorted b _)
        · intro x hx y hy
          obtain ⟨op, hop, rfl⟩ := List.mem_map.mp hy
          exact h.sent_lt hx (h.keyed.mem_drainSince.mp hop).1
      · rw [if_neg hc, List.append_nil]
        exact h.increasing c
    · intro c op hop
      rw [hops, List.mem_append] at hop
      cases hop with
      | inl hold => exact hgrow c _ (h.seen c op hold)
      | inr hnew =>
        by_cases hc : b = c
        · subst hc
          rw [if_pos rfl, deltaOps] at hnew
          obtain ⟨new, hmem, rfl⟩ := List.mem_map.mp hnew
          obtain ⟨hle, stored, hget, _⟩ := h.keyed.mem_drainSince.mp hmem
          rw [hlookup, if_pos rfl]
          exact ⟨m, rfl, hmax new.lsn stored hget hle⟩
        · rw [if_neg hc] at hnew
          cases hnew
    · intro frame hframe lsn hlsn
      rw [hsent, List.mem_append] at hframe
      cases hframe with
      | inl hold => exact hgrow frame.1 _ (h.deltas frame hold lsn hlsn)
      | inr hnew =>
        cases List.mem_singleton.mp hnew
        cases hlsn
        rw [hlookup, if_pos rfl]
        exact ⟨m, rfl, UInt64.le_refl _⟩

theorem Tracked.step {s t : Delivery} {a : DeliveryAction} (h : Tracked s) (ha : s.Bounded a)
    (hstep : s.step a = some t) : Tracked t := by
  cases a with
  | append wall b op =>
    cases hstep
    exact h.append wall b ha
  | compact cutoff =>
    cases hstep
    exact h.compact cutoff
  | startPoll order =>
    rw [Delivery.step] at hstep
    split at hstep
    next hcond =>
      cases hstep
      exact h.startPoll hcond.2
    next => cases hstep
  | scan => exact h.scan hstep
  | receive msg =>
    rw [Delivery.step] at hstep
    split at hstep
    next =>
      cases hstep
      exact h.receive msg ha
    next => cases hstep

/-- The router appends to each bucket in increasing LSN order, nothing is compacted, and the
client acknowledges only LSNs of Deltas it was sent. -/
def Faithful (s : Delivery) : DeliveryAction → Prop
  | .append _ b op => op.lsn < PgLsn.max ∧ ∀ e ∈ (s.log b).toList, e.1 < op.lsn
  | .compact _ => False
  | .receive (.ack lsn) => s.DeltaSent lsn
  | _ => True

instance (s : Delivery) (a : DeliveryAction) : Decidable (s.Faithful a) :=
  match a with
  | .append _ _ _ => inferInstanceAs (Decidable (_ ∧ _))
  | .compact _ => inferInstanceAs (Decidable False)
  | .receive (.ack lsn) => inferInstanceAs (Decidable (s.DeltaSent lsn))
  | .receive (.write _ _ _) | .receive .ping | .receive (.subscribe _ _ _ _) | .startPoll _
  | .scan => inferInstanceAs (Decidable True)

instance (s : Delivery) (a : DeliveryAction) : Decidable (s.Bounded a) :=
  match a with
  | .append _ _ _ | .receive (.ack _) => inferInstanceAs (Decidable (_ < _))
  | .compact _ | .receive (.write _ _ _) | .receive .ping | .receive (.subscribe _ _ _ _)
  | .startPoll _ | .scan => inferInstanceAs (Decidable True)

theorem Tracked.bounded_of_faithful {s : Delivery} (h : Tracked s) {a : DeliveryAction}
    (ha : s.Faithful a) : s.Bounded a := by
  cases a with
  | append wall b op => exact ha.1
  | receive msg =>
    cases msg with
    | ack lsn =>
      obtain ⟨frame, hframe, hlsn⟩ := ha
      obtain ⟨m, hm, hle⟩ := h.deltas frame hframe lsn hlsn
      exact UInt64.lt_of_le_of_lt hle (h.bounded frame.1 m hm)
    | write entityType entityId op => trivial
    | ping => trivial
    | subscribe buckets token resumeLsn version => trivial
  | compact cutoff => trivial
  | startPoll order => trivial
  | scan => trivial

end Delivery

end EntitySync.Gateway
