import EntitySync.Gateway.ExactlyOnce
import EntitySync.System.Reconnect

/-!
# Many clients of one log

Any number of clients against one op log, each subscribed to one bucket. Connections drop and come
back at any time, and the steps of the clients, their sessions and the router fall between each
other in any way. A client's position is the LSN of the last Delta it got; the Deltas on their way
lead from there to the last seen LSN of its session, without a gap and without an overlap. So what
a client has received is at any time an initial piece of the bucket's history.
-/

namespace EntitySync.System

open Client (SyncClient)
open Gateway (Delivery authorize handshake rewire deltaOps deltaLsn)
open Gateway.Delivery (covered mem_covered Tracked)
open Oplog (Partitions StoredOp)
open StepSystem

def opsUpTo (log : Partitions) (b wire : BucketId) (lsn : Option PgLsn) : List BucketOp :=
  (covered lsn (log b).toList).map fun e => rewire wire e.2.op

def Logged (log : Partitions) (b : BucketId) (lsn : PgLsn) : Prop :=
  ∃ stored, (log b)[lsn]? = some stored

def Leads (log : Partitions) (b wire : BucketId) (stop : Option PgLsn) :
    Option PgLsn → List (BucketId × ServerMessage) → Prop
  | start, [] => start = stop
  | start, frame :: frames => ∃ lsn, deltaLsn frame.2 = some lsn ∧ Logged log b lsn ∧
    opsUpTo log b wire start ++ deltaOps frame.2 = opsUpTo log b wire (some lsn) ∧
    Leads log b wire stop (some lsn) frames

section
variable {log : Partitions} {b wire : BucketId}

@[simp] theorem opsUpTo_none : opsUpTo log b wire none = [] := by
  have hnone : covered none (log b).toList = [] := by
    apply List.eq_nil_iff_forall_not_mem.mpr
    intro e he
    obtain ⟨_, m, hm, _⟩ := mem_covered.mp he
    cases hm
  rw [opsUpTo, hnone, List.map_nil]

theorem opsUpTo_append {wall : UInt64} {c : BucketId} {op : BucketOp}
    (hlast : ∀ e ∈ (log c).toList, e.1 < op.lsn) {lsn : Option PgLsn}
    (hlogged : ∀ l ∈ lsn, Logged log b l) :
    opsUpTo (log.append wall c op.lsn op) b wire lsn = opsUpTo log b wire lsn := by
  by_cases hc : b = c
  · subst hc
    have hnew : covered lsn [(op.lsn, (⟨op, wall⟩ : StoredOp))] = [] := by
      apply List.eq_nil_iff_forall_not_mem.mpr
      intro e he
      obtain ⟨hmem, l, hl, hle⟩ := mem_covered.mp he
      obtain ⟨stored, hget⟩ := hlogged l hl
      have hlt := hlast (l, stored) (Std.TreeMap.mem_toList_iff_getElem?_eq_some.mpr hget)
      rw [List.mem_singleton.mp hmem] at hle
      exact UInt64.lt_irrefl _ (UInt64.lt_of_lt_of_le hlt hle)
    rw [covered] at hnew
    rw [opsUpTo, covered, Partitions.toList_append_last hlast, List.filter_append, hnew,
      List.append_nil]
    rfl
  · rw [opsUpTo, Partitions.append, if_neg hc]
    rfl

theorem Logged.append {wall : UInt64} {c : BucketId} {op : BucketOp} {l : PgLsn}
    (h : Logged log b l) : Logged (log.append wall c op.lsn op) b l :=
  Partitions.exists_append h wall c op.lsn op

theorem Leads.append {wall : UInt64} {c : BucketId} {op : BucketOp}
    (hlast : ∀ e ∈ (log c).toList, e.1 < op.lsn) {start stop : Option PgLsn}
    {frames : List (BucketId × ServerMessage)} (hstart : ∀ l ∈ start, Logged log b l)
    (h : Leads log b wire stop start frames) :
    Leads (log.append wall c op.lsn op) b wire stop start frames := by
  induction frames generalizing start with
  | nil => exact h
  | cons frame frames ih =>
    obtain ⟨lsn, hlsn, hlogged, hops, hrest⟩ := h
    have hnext : ∀ l ∈ some lsn, Logged log b l := by simpa using hlogged
    refine ⟨lsn, hlsn, hlogged.append, ?_, ih hnext hrest⟩
    rw [opsUpTo_append hlast hstart, opsUpTo_append hlast hnext]
    exact hops

theorem Leads.concat {start stop : Option PgLsn} {frames : List (BucketId × ServerMessage)}
    {frame : BucketId × ServerMessage} {lsn : PgLsn} (h : Leads log b wire stop start frames)
    (hlsn : deltaLsn frame.2 = some lsn) (hlogged : Logged log b lsn)
    (hops : opsUpTo log b wire stop ++ deltaOps frame.2 = opsUpTo log b wire (some lsn)) :
    Leads log b wire (some lsn) start (frames ++ [frame]) := by
  induction frames generalizing start with
  | nil =>
    cases h
    exact ⟨lsn, hlsn, hlogged, hops, rfl⟩
  | cons first frames ih =>
    obtain ⟨l, hl, hfirst, hfirstOps, hrest⟩ := h
    exact ⟨l, hl, hfirst, hfirstOps, ih hrest⟩

theorem covered_since {s : Delivery} (h : Tracked s) {m : PgLsn} (hfrom : s.session.scanFrom b ≤ m)
    (hmax : ∀ l stored, (s.log b)[l]? = some stored → s.session.scanFrom b ≤ l → l ≤ m) :
    covered (s.session.lastSeenLsn.lookup b) (s.log b).toList ++
        s.log.since b (s.session.scanFrom b) =
      covered (some m) (s.log b).toList := by
  have hscan (l : PgLsn) :
      s.session.scanFrom b ≤ l ↔ ∀ m, s.session.lastSeenLsn.lookup b = some m → m < l :=
    Gateway.Session.scanFrom_le_iff (h.bounded b)
  have hordered := OrderedScan.ordered_toList (s.log b)
  apply OrderedScan.Ordered.eq_of_mem_iff
  · refine List.pairwise_append.mpr ⟨hordered.filter _, OrderedScan.ordered_range _ _ _, ?_⟩
    intro x hx y hy
    obtain ⟨_, old, hold, hle⟩ := mem_covered.mp hx
    have hlt := (hscan y.1).mp (Partitions.mem_since.mp hy).2.1 old hold
    exact Std.compare_eq_lt.mpr (UInt64.lt_of_le_of_lt hle hlt)
  · exact hordered.filter _
  · intro e
    rw [List.mem_append, mem_covered, mem_covered]
    constructor
    · rintro (⟨hmem, old, hold, hle⟩ | hnew)
      · have hlt := (hscan m).mp hfrom old hold
        exact ⟨hmem, m, rfl, UInt64.le_trans hle (UInt64.le_of_lt hlt)⟩
      · have hin := Partitions.mem_since.mp (show (e.1, e.2) ∈ _ from hnew)
        exact ⟨Std.TreeMap.mem_toList_iff_getElem?_eq_some.mpr hin.1, m, rfl,
          hmax e.1 e.2 hin.1 hin.2.1⟩
    · rintro ⟨hmem, _⟩
      have hget := Std.TreeMap.mem_toList_iff_getElem?_eq_some.mp (show (e.1, e.2) ∈ _ from hmem)
      by_cases hle : s.session.scanFrom b ≤ e.1
      · exact Or.inr (Partitions.mem_since.mpr ⟨hget, hle, h.keyed.lt_max hget⟩)
      · exact Or.inl ⟨hmem, h.seen_of_not_scanned hle⟩

end

namespace Link

def receivedOps (s : Link) : List BucketOp := s.received.flatMap fun frame => deltaOps frame.2

section
variable (assignments : List BucketAssignment) (buckets : List String) (b : BucketId)

def wireName : BucketId := (handshake assignments buckets none).wireBucketId b

/-- A client with the single bucket `b` has received the partition up to its own LSN, and the
Deltas on their way lead on to the last seen LSN of its session. -/
structure Current (s : Link) : Prop where
  logged : ∀ lsn ∈ s.client.lastLsn, Logged s.delivery.log b lsn
  received : s.receivedOps =
    opsUpTo s.delivery.log b (wireName assignments buckets b) s.client.lastLsn
  onWay : Leads s.delivery.log b (wireName assignments buckets b)
    (s.delivery.session.lastSeenLsn.lookup b) s.client.lastLsn
    (s.delivery.sent.drop s.delivered)
  acks : ∀ lsn, ClientMessage.ack lsn ∈ s.replies →
    ∃ frame ∈ s.delivery.sent, deltaLsn frame.2 = some lsn

end

variable {assignments : List BucketAssignment} {buckets : List String} {b : BucketId} {s t : Link}

theorem lookup_start {log : Partitions} (hsingle : (authorize assignments buckets).keys = [b])
    (resumeLsn : Option PgLsn) :
    (Delivery.start log assignments buckets resumeLsn).session.lastSeenLsn.lookup b =
      resumeLsn := by
  have hmem : b ∈ (handshake assignments buckets resumeLsn).authorizedBuckets := by
    change b ∈ (authorize assignments buckets).keys
    rw [hsingle]
    exact List.mem_singleton_self b
  exact (Gateway.lookup_lastSeen_handshake _ _ _ _).trans (if_pos hmem)

theorem current_init (hsingle : (authorize assignments buckets).keys = [b]) :
    Current assignments buckets b (init assignments buckets) := by
  refine ⟨by simp [init, SyncClient.new], ?_, ?_, by simp [init]⟩
  · exact opsUpTo_none.symm
  · exact (lookup_start hsingle none).symm

theorem Current.append (h : Current assignments buckets b s) (wall : UInt64) (c : BucketId)
    {op : BucketOp} (horderly : s.Orderly (.append wall c op)) :
    Current assignments buckets b { s with
      delivery := { s.delivery with log := s.delivery.log.append wall c op.lsn op }
      owed := if s.snapshotted then s.owed ++ [(c, op)] else s.owed } := by
  refine ⟨fun lsn hlsn => (h.logged lsn hlsn).append, ?_, ?_, h.acks⟩
  · rw [opsUpTo_append horderly.2 h.logged]
    exact h.received
  · exact h.onWay.append horderly.2 h.logged

theorem Current.connect {token : String} {order : List BucketId}
    {reads : BucketId → List (List Json.Value) × BucketChecksum}
    (hsingle : (authorize assignments buckets).keys = [b]) (hsound : Sound assignments buckets s)
    (h : Current assignments buckets b s)
    (hstep : s.step assignments (.connect token order reads) = some t) :
    Current assignments buckets b t := by
  obtain ⟨d, rfl, rfl⟩ := connect_cases hstep
  rw [hsound.subscribed]
  refine ⟨h.logged, h.received, ?_, by simp⟩
  exact (lookup_start hsingle _).symm

theorem eq_of_scanning (hsingle : (authorize assignments buckets).keys = [b])
    (hsound : Sound assignments buckets s) {c : BucketId} (hc : c ∈ s.delivery.scanning) :
    c = b := by
  have hmem : c ∈ s.delivery.session.authorizedBuckets.keys := hsound.tracked.scanning c hc
  rw [hsound.authorized, hsingle] at hmem
  exact List.mem_singleton.mp hmem

theorem Current.scan (hsingle : (authorize assignments buckets).keys = [b])
    (hsound : Sound assignments buckets s) (h : Current assignments buckets b s) {d : Delivery}
    (hd : s.delivery.step .scan = some d) :
    Current assignments buckets b { s with delivery := d } := by
  obtain ⟨c, rest, hscanning, hlog, _, hcase⟩ :=
    Gateway.Delivery.scan_cases hsound.tracked.keyed hd
  obtain rfl := eq_of_scanning hsingle hsound (c := c) (by simp [hscanning])
  cases hcase with
  | idle _ hsession hsent =>
    refine ⟨hlog ▸ h.logged, hlog ▸ h.received, ?_, hsent ▸ h.acks⟩
    have honWay := h.onWay
    rw [← hlog, ← hsession, ← hsent] at honWay
    exact honWay
  | delta m hlast hmax hsession hsent =>
    obtain ⟨stored, hget, hfrom⟩ := hlast
    have hops := congrArg (List.map fun e => rewire (wireName assignments buckets c) e.2.op)
      (covered_since hsound.tracked hfrom hmax)
    rw [List.map_append] at hops
    refine ⟨hlog ▸ h.logged, hlog ▸ h.received, ?_, ?_⟩
    · change Leads d.log _ _ (d.session.lastSeenLsn.lookup c) _ (d.sent.drop s.delivered)
      rw [hlog, Gateway.Delivery.lookup_of_delta hsession, if_pos rfl, hsent,
        List.drop_append_of_le_length hsound.within]
      refine h.onWay.concat rfl ⟨stored, hget⟩ ?_
      rw [hsound.wire, deltaOps, Partitions.drainSince, List.map_map]
      exact hops
    · intro lsn hlsn
      obtain ⟨frame, hframe, hdelta⟩ := h.acks lsn hlsn
      exact ⟨frame, hsent ▸ List.mem_append_left _ hframe, hdelta⟩

theorem Current.receiveFrame (hsound : Sound assignments buckets s)
    (h : Current assignments buckets b s) (hstep : s.receiveFrame = some t) :
    Current assignments buckets b t := by
  rw [Link.receiveFrame] at hstep
  split at hstep
  next frame rest hsnapshot =>
    cases hstep
    have hkeep := hsound.snapshot frame (by simp [hsnapshot]) s.client
    refine ⟨?_, ?_, ?_, h.acks⟩
    · simpa only [hkeep] using h.logged
    · simp only [hkeep]
      exact h.received
    · simpa only [hkeep] using h.onWay
  next hsnapshot =>
    obtain ⟨frame, hframe, rfl⟩ := Option.map_eq_some_iff.mp hstep
    obtain ⟨hlt, hget⟩ := List.getElem?_eq_some_iff.mp hframe
    have honWay := h.onWay
    rw [List.drop_eq_getElem_cons hlt, hget] at honWay
    obtain ⟨lsn, hlsn, hlogged, hops, hrest⟩ := honWay
    have hclient := handleMessage_of_delta hlsn s.client
    refine ⟨?_, ?_, ?_, ?_⟩
    · simpa only [hclient.1, Option.mem_some_iff, forall_eq'] using hlogged
    · simp only [receivedOps, List.flatMap_append, List.flatMap_singleton, hclient.1]
      rw [← hops, ← h.received]
      rfl
    · simpa only [hclient.1] using hrest
    · intro l hl
      simp only [hclient.2, Option.toList_some, List.mem_append, List.mem_singleton,
        ClientMessage.ack.injEq] at hl
      obtain hold | rfl := hl
      · exact h.acks l hold
      · exact ⟨frame, List.mem_of_getElem? hframe, hlsn⟩

theorem lookup_ack_of_sent (hsingle : (authorize assignments buckets).keys = [b])
    (hsound : Sound assignments buckets s) {frame : BucketId × ServerMessage} {lsn : PgLsn}
    (hframe : frame ∈ s.delivery.sent) (hlsn : deltaLsn frame.2 = some lsn) :
    (s.delivery.session.ack lsn).lastSeenLsn.lookup b =
      s.delivery.session.lastSeenLsn.lookup b := by
  obtain ⟨m, hm, hle⟩ := hsound.tracked.deltas frame hframe lsn hlsn
  have hmem : frame.1 ∈ s.delivery.session.authorizedBuckets.keys :=
    hsound.tracked.authorized frame.1 m hm
  rw [hsound.authorized, hsingle] at hmem
  rw [List.mem_singleton.mp hmem] at hm
  rw [Gateway.Session.lookup_ack, hm, Option.map_some, if_neg (UInt64.not_lt.mpr hle)]

theorem Current.step {a : LinkAction} (hsingle : (authorize assignments buckets).keys = [b])
    (hsound : Sound assignments buckets s) (h : Current assignments buckets b s)
    (horderly : s.Orderly a) (hstep : s.step assignments a = some t) :
    Current assignments buckets b t := by
  cases a with
  | append wall c op =>
    cases hstep
    exact h.append wall c horderly
  | connect token order reads => exact h.connect hsingle hsound hstep
  | startPoll order =>
    obtain ⟨rfl, _⟩ := startPoll_cases hstep
    exact ⟨h.logged, h.received, h.onWay, h.acks⟩
  | scan =>
    obtain ⟨d, hd, rfl⟩ := serve_cases hstep
    exact h.scan hsingle hsound hd
  | deliver =>
    rw [Link.step] at hstep
    split at hstep
    · exact h.receiveFrame hsound hstep
    · cases hstep
  | handleReply =>
    obtain ⟨lsn, rest, hreplies, _, rfl⟩ := handleReply_cases hsound hstep
    obtain ⟨frame, hframe, hlsn⟩ := h.acks lsn (by simp [hreplies])
    refine ⟨h.logged, h.received, ?_, ?_⟩
    · have hkeep := lookup_ack_of_sent hsingle hsound hframe hlsn
      rw [show (s.delivery.session.ack lsn).lastSeenLsn.lookup b = _ from hkeep]
      exact h.onWay
    · intro l hl
      exact h.acks l (by simp [hreplies, hl])
  | drop =>
    rw [Link.step] at hstep
    split at hstep
    · cases hstep
      exact ⟨h.logged, h.received, h.onWay, by simp⟩
    · cases hstep

theorem log_of_receiveFrame (h : s.receiveFrame = some t) : t.delivery = s.delivery := by
  rw [Link.receiveFrame] at h
  split at h
  · cases h
    rfl
  · obtain ⟨frame, _, rfl⟩ := Option.map_eq_some_iff.mp h
    rfl

theorem log_of_step {a : LinkAction} (ha : ∀ wall c op, a ≠ .append wall c op)
    (h : s.step assignments a = some t) : t.delivery.log = s.delivery.log := by
  cases a with
  | append wall c op => exact absurd rfl (ha wall c op)
  | connect token order reads =>
    obtain ⟨d, rfl, rfl⟩ := connect_cases h
    rfl
  | startPoll order =>
    obtain ⟨rfl, _⟩ := startPoll_cases h
    rfl
  | scan =>
    obtain ⟨d, hd, rfl⟩ := serve_cases h
    exact Delivery.log_of_scan hd
  | deliver =>
    rw [Link.step] at h
    split at h
    · rw [log_of_receiveFrame h]
    · cases h
  | handleReply =>
    rw [Link.step] at h
    split at h
    · cases h
    · obtain ⟨d, hd, rfl⟩ := serve_cases h
      exact Delivery.log_of_receive hd
  | drop =>
    rw [Link.step] at h
    split at h
    · cases h
      rfl
    · cases h

end Link

/-- What a client may be assigned, what it requests, and the one bucket that makes. -/
structure Seat where
  assignments : List BucketAssignment
  buckets : List String
  bucket : BucketId
  single : (authorize assignments buckets).keys = [bucket]

structure Fleet (ι : Type) where
  log : Partitions
  links : ι → Link

inductive FleetAction (ι : Type) where
  | append (wall : UInt64) (b : BucketId) (op : BucketOp)
  | client (i : ι) (a : LinkAction)

namespace Fleet

variable {ι : Type} (seats : ι → Seat)

def init : Fleet ι := ⟨Partitions.empty, fun i => .init (seats i).assignments (seats i).buckets⟩

/-- An append is seen by all sessions; every other step is one of a single client. -/
def step [DecidableEq ι] (s : Fleet ι) : FleetAction ι → Option (Fleet ι)
  | .append wall b op =>
    some {
      log := s.log.append wall b op.lsn op
      links := fun i => ((s.links i).step (seats i).assignments (.append wall b op)).getD
        (s.links i) }
  | .client _ (.append _ _ _) => none
  | .client i a => ((s.links i).step (seats i).assignments a).map fun link =>
    { s with links := Function.update s.links i link }

/-- The router appends to each bucket in increasing LSN order, and the clients' numbers represent
the LSNs. -/
def Orderly (s : Fleet ι) : FleetAction ι → Prop
  | .append _ b op => op.lsn ≤ Client.maxSafeInteger ∧ ∀ e ∈ (s.log b).toList, e.1 < op.lsn
  | .client _ _ => True

instance (s : Fleet ι) (a : FleetAction ι) : Decidable (s.Orderly a) :=
  match a with
  | .append _ _ _ => inferInstanceAs (Decidable (_ ∧ _))
  | .client _ _ => isTrue trivial

def history (s : Fleet ι) (b : BucketId) : List BucketOp :=
  (s.log b).toList.map fun e => rewire b e.2.op

def view (s : Fleet ι) (i : ι) : List BucketOp :=
  (s.links i).receivedOps.map (rewire (seats i).bucket)

structure Sound (s : Fleet ι) : Prop where
  shared : ∀ i, (s.links i).delivery.log = s.log
  links : ∀ i, Link.Sound (seats i).assignments (seats i).buckets (s.links i)
  current : ∀ i, Link.Current (seats i).assignments (seats i).buckets (seats i).bucket (s.links i)

variable {seats} {s t : Fleet ι}

theorem sound_init : Sound seats (init seats) :=
  ⟨fun _ => rfl, fun _ => Link.sound_init, fun i => Link.current_init (seats i).single⟩

section
variable [DecidableEq ι]

theorem client_cases {i : ι} {a : LinkAction} (h : s.step seats (.client i a) = some t) :
    (∀ wall b op, a ≠ .append wall b op) ∧
      ∃ link, (s.links i).step (seats i).assignments a = some link ∧
        t = { s with links := Function.update s.links i link } := by
  cases a with
  | append wall b op => cases h
  | connect | startPoll | scan | deliver | handleReply | drop =>
    refine ⟨by simp, ?_⟩
    obtain ⟨link, hlink, rfl⟩ := Option.map_eq_some_iff.mp h
    exact ⟨link, hlink, rfl⟩

theorem Sound.step {a : FleetAction ι} (h : Sound seats s) (ha : s.Orderly a)
    (hstep : s.step seats a = some t) : Sound seats t := by
  cases a with
  | append wall b op =>
    cases hstep
    have horderly (i : ι) : (s.links i).Orderly (.append wall b op) := by
      rw [Link.Orderly, h.shared i]
      exact ha
    refine ⟨fun i => ?_, fun i => ?_, fun i => ?_⟩
    · exact congrArg (fun log => log.append wall b op.lsn op) (h.shared i)
    · exact (h.links i).append wall b (horderly i)
    · exact (h.current i).append wall b (horderly i)
  | client i a =>
    obtain ⟨hother, link, hlink, rfl⟩ := client_cases hstep
    have horderly : (s.links i).Orderly a := by
      cases a with
      | append wall b op => exact absurd rfl (hother wall b op)
      | connect | startPoll | scan | deliver | handleReply | drop => trivial
    have hkeep {P : ι → Link → Prop} (hold : ∀ j, P j (s.links j)) (hnew : P i link) (j : ι) :
        P j (Function.update s.links i link j) := by
      by_cases hj : j = i
      · subst hj
        rwa [Function.update_self]
      · rw [Function.update_of_ne hj]
        exact hold j
    refine ⟨?_, ?_, ?_⟩
    · exact hkeep (P := fun _ link => link.delivery.log = s.log) h.shared
        ((Link.log_of_step hother hlink).trans (h.shared i))
    · exact hkeep h.links ((h.links i).step horderly hlink)
    · exact hkeep h.current ((h.current i).step (seats i).single (h.links i) horderly hlink)

end

theorem covered_initial {es : List (PgLsn × StoredOp)} (h : OrderedScan.Ordered es)
    (lsn : Option PgLsn) : covered lsn es <+: es := by
  induction es with
  | nil => exact List.prefix_rfl
  | cons e es ih =>
    obtain ⟨hfirst, hrest⟩ := List.pairwise_cons.mp h
    by_cases hcovered : ∃ m ∈ lsn, e.1 ≤ m
    · rw [covered, List.filter_cons, if_pos (by exact decide_eq_true hcovered)]
      exact (List.prefix_cons_inj e).mpr (ih hrest)
    · -- no later entry is covered either
      have hnil : covered lsn (e :: es) = [] := by
        apply List.eq_nil_iff_forall_not_mem.mpr
        intro x hx
        obtain ⟨hmem, m, hm, hle⟩ := mem_covered.mp hx
        rcases List.mem_cons.mp hmem with rfl | hmem
        · exact hcovered ⟨m, hm, hle⟩
        · have hlt : e.1 < x.1 := Std.compare_eq_lt.mp (hfirst x hmem)
          exact hcovered ⟨m, hm, UInt64.le_trans (UInt64.le_of_lt hlt) hle⟩
      rw [hnil]
      exact List.nil_prefix

theorem Sound.view_eq (h : Sound seats s) (i : ι) :
    s.view seats i =
      (covered (s.links i).client.lastLsn (s.log (seats i).bucket).toList).map
        fun e => rewire (seats i).bucket e.2.op := by
  rw [view, (h.current i).received, opsUpTo, List.map_map, h.shared i]
  rfl

theorem Sound.view_initial (h : Sound seats s) (i : ι) :
    s.view seats i <+: s.history (seats i).bucket := by
  rw [h.view_eq, history]
  exact (covered_initial (OrderedScan.ordered_toList _) _).map _

/-- A client that has caught up has received the whole history. -/
theorem Sound.view_of_caughtUp (h : Sound seats s) {i : ι}
    (hcaught : (s.links i).CaughtUp (seats i).assignments (seats i).buckets) :
    s.view seats i = s.history (seats i).bucket := by
  obtain ⟨_, hdelivered, hscanned⟩ := hcaught
  have honWay := (h.current i).onWay
  rw [hdelivered, List.drop_length] at honWay
  have hlast : (s.links i).client.lastLsn =
    (s.links i).delivery.session.lastSeenLsn.lookup (seats i).bucket := honWay
  have hall : covered (s.links i).client.lastLsn (s.log (seats i).bucket).toList =
      (s.log (seats i).bucket).toList := by
    rw [covered, List.filter_eq_self]
    intro e he
    rw [hlast]
    refine decide_eq_true (hscanned _ ?_ e ?_)
    · rw [(seats i).single]
      exact List.mem_singleton_self _
    · rw [h.shared i]
      exact he
  rw [h.view_eq, hall, history]

/-- In every run with increasing LSNs each bucket has one history, and what a client of the bucket
has received is an initial piece of it, each op once and in order, however often its connection
dropped. Hence of two clients of a bucket one has received an initial piece of what the other has,
and clients that have caught up have received the same. -/
theorem clients_agree [DecidableEq ι] (seats : ι → Seat) {actions : List (FleetAction ι)}
    {s : Fleet ι} (horderly : Meets (step seats) Orderly (init seats) actions)
    (hrun : run (step seats) (init seats) actions = some s) :
    (∀ i, s.view seats i <+: s.history (seats i).bucket) ∧
    (∀ i j, (seats i).bucket = (seats j).bucket →
      s.view seats i <+: s.view seats j ∨ s.view seats j <+: s.view seats i) ∧
    ∀ i, (s.links i).CaughtUp (seats i).assignments (seats i).buckets →
      s.view seats i = s.history (seats i).bucket := by
  have hsound : Sound seats s :=
    horderly.invariant (fun _ _ _ hs ha hstep => hs.step ha hstep) sound_init hrun
  refine ⟨hsound.view_initial, ?_, fun i => hsound.view_of_caughtUp⟩
  intro i j hbucket
  have hi := hsound.view_initial i
  have hj := hsound.view_initial j
  rw [hbucket] at hi
  exact List.prefix_or_prefix_of_prefix hi hj

private def ownerSeat : Seat :=
  ⟨[Rules.ownerAssignment "42"], ["user_entities"], (Rules.ownerAssignment "42").bucketId, rfl⟩

private def ownerDelete (lsn : PgLsn) : BucketOp :=
  ⟨lsn, ownerSeat.bucket, "entities", "a", .delete⟩

private def arrive (i : Bool) : List (FleetAction Bool) :=
  [.client i (.connect "token" [ownerSeat.bucket] fun _ => ([], 0)), .client i .deliver,
    .client i .deliver]

private def pollOnce (i : Bool) : List (FleetAction Bool) :=
  [.client i (.startPoll [ownerSeat.bucket]), .client i .scan]

/-- The first Delta of the client `false` is lost with its connection. -/
private def oneDrops : List (FleetAction Bool) :=
  arrive true ++ arrive false ++ [.append 0 ownerSeat.bucket (ownerDelete 3)] ++ pollOnce true ++
    [.client true .deliver] ++ pollOnce false ++
    [.client false .drop, .append 0 ownerSeat.bucket (ownerDelete 5)] ++ arrive false ++
    pollOnce false ++ [.client false .deliver]

private def ownerSeats : Bool → Seat := fun _ => ownerSeat

theorem clients_agree_one_drops : ∃ s, run (step ownerSeats) (init ownerSeats) oneDrops = some s ∧
    (s.view ownerSeats true).map (·.lsn) = [3] ∧ (s.view ownerSeats false).map (·.lsn) = [3, 5] ∧
    (s.view ownerSeats true <+: s.view ownerSeats false ∨
      s.view ownerSeats false <+: s.view ownerSeats true) := by
  refine ⟨_, rfl, by decide +kernel, by decide +kernel, ?_⟩
  have horderly : Meets (step ownerSeats) Orderly (init ownerSeats) oneDrops := by
    decide +kernel
  exact (clients_agree ownerSeats horderly rfl).2.1 true false rfl

end Fleet

end EntitySync.System
