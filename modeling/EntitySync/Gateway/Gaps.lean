import EntitySync.Gateway.Confinement

/-!
# Gaps left by compaction

A client that resumes from an LSN gets no snapshot, so everything above that LSN has to come from
the op log. The whole history of a log is followed here, over any number of connections: what was
ever appended, and what the connection at hand has sent or would send with its next scan.
-/

namespace EntitySync.Gateway

open Oplog (Partitions StoredOp)
open StepSystem

/-- The frame starts a snapshot of the bucket. An Error frame in the main loop answers some other
message and says nothing about a gap; one that answers the `Subscribe` ends the connection. -/
def reportsGap (wire : BucketId) : ServerMessage → Bool
  | .snapshotBegin b _ _ => b = wire
  | .snapshotBatch _ _ _ | .snapshotComplete _ _ | .delta _ _ _ | .checkpoint _ _
  | .keepalive _ | .error _ _ => false

def DeltaHolds (sent : List ServerMessage) (wire : BucketId) (op : BucketOp) : Prop :=
  ∃ frame ∈ sent, dataBucket frame = some wire ∧ rewire wire op ∈ deltaOps frame

/-- The session owes the client this op of an authorized bucket: it lies above the resume LSN, and
neither a Delta with it nor a snapshot of the bucket was sent. -/
def Owed (sent : List ServerMessage) (lsn : PgLsn) (session : Session) (b : BucketId)
    (op : BucketOp) : Prop :=
  b ∈ session.authorizedBuckets ∧
    (∀ frame ∈ sent, reportsGap (session.wireBucketId b) frame = false) ∧
    lsn < op.lsn ∧ ¬DeltaHolds sent (session.wireBucketId b) op

/-- Every appended op that the session owes comes with the next scan of its bucket. -/
def Complete (log : Partitions) (sent : List ServerMessage) (appended : List (BucketId × BucketOp))
    (lsn : PgLsn) (session : Session) : Prop :=
  ∀ b op, (b, op) ∈ appended → Owed sent lsn session b op →
    op ∈ log.drainSince b (session.scanFrom b)

instance (sent : List ServerMessage) (wire : BucketId) (op : BucketOp) :
    Decidable (DeltaHolds sent wire op) :=
  inferInstanceAs (Decidable (∃ frame ∈ sent, _))

instance (sent : List ServerMessage) (lsn : PgLsn) (session : Session) (b : BucketId)
    (op : BucketOp) : Decidable (Owed sent lsn session b op) :=
  inferInstanceAs (Decidable (_ ∧ _))

instance (log : Partitions) (sent : List ServerMessage) (appended : List (BucketId × BucketOp))
    (lsn : PgLsn) (session : Session) : Decidable (Complete log sent appended lsn session) :=
  decidable_of_iff (∀ e ∈ appended, Owed sent lsn session e.1 e.2 →
    e.2 ∈ log.drainSince e.1 (session.scanFrom e.1)) Prod.forall

/-- A connection over a log with everything that was ever appended to it. -/
structure Service where
  conn : Connection
  appended : List (BucketId × BucketOp)
  /-- The resume LSN of the connection's `Subscribe`. -/
  resumed : Option PgLsn

inductive ServiceAction where
  | connection (a : ConnectionAction)
  | reconnect

def ConnectionAction.appended : ConnectionAction → List (BucketId × BucketOp)
  | .append _ b op => [(b, op)]
  | _ => []

def Phase.resumed (resumed : Option PgLsn) : Phase → Option PgLsn
  | .validating _ resumeLsn | .assigning _ resumeLsn => resumeLsn
  | .awaiting | .snapshots _ _ | .streaming _ _ _ _ _ | .serving _ _ | .reporting _ _
  | .closed _ => resumed

namespace Service

def start : Service where
  conn := .start Partitions.empty
  appended := []
  resumed := none

def step (s : Service) : ServiceAction → Option Service
  | .connection a => (s.conn.step a).map fun conn =>
      { conn := conn, appended := s.appended ++ a.appended,
        resumed := conn.phase.resumed s.resumed }
  | .reconnect => some { s with conn := .start s.conn.log, resumed := none }

/-- While a resumed client is served, its bucket was sent as a snapshot, or all ops above its LSN
have been sent or come with the next scan. -/
def NoSilentGap (s : Service) : Prop :=
  match s.conn.phase with
  | .serving session _ => ∀ lsn ∈ s.resumed, Complete s.conn.log s.conn.sent s.appended lsn session
  | _ => True

instance (s : Service) : Decidable s.NoSilentGap :=
  match h : s.conn.phase with
  | .serving session _ =>
    decidable_of_iff (∀ lsn ∈ s.resumed, Complete s.conn.log s.conn.sent s.appended lsn session)
      (by rw [NoSilentGap, h])
  | .awaiting | .validating _ _ | .assigning _ _ | .snapshots _ _ | .streaming _ _ _ _ _
  | .reporting _ _ | .closed _ => isTrue (by rw [NoSilentGap, h]; trivial)

/-- A resumed session starts with all ops above its LSN in the log. While it lasts, a compaction
removes nothing that it owes, an append overwrites nothing that it owes and comes above its last
seen LSN, and an acknowledgement does not raise that beyond what it owes. -/
def Retained (s : Service) : ServiceAction → Prop
  | .reconnect => True
  | .connection a => ∀ lsn ∈ s.resumed,
    match s.conn.phase, a with
    | .snapshots session [], .serve => ∀ b op, b ∈ session.authorizedBuckets →
        (b, op) ∈ s.appended → lsn < op.lsn →
          op.lsn < PgLsn.max ∧ ∃ stored, (s.conn.log b)[op.lsn]? = some stored ∧ stored.op = op
    | .serving session _, .append _ b op =>
        (Owed s.conn.sent lsn session b op → session.scanFrom b ≤ op.lsn ∧ op.lsn < PgLsn.max) ∧
        ∀ old ∈ s.conn.log.drainSince b (session.scanFrom b),
          Owed s.conn.sent lsn session b old → old.lsn = op.lsn → old = op
    | .serving session _, .compact cutoff => ∀ (b : BucketId) (l : PgLsn) (stored : StoredOp),
        (s.conn.log b)[l]? = some stored → session.scanFrom b ≤ l → l < PgLsn.max →
          Owed s.conn.sent lsn session b stored.op → cutoff ≤ stored.appendedAtUnixSecs
    | .serving session _, .incoming (.binary (.ok (.ack acked))) _ _ => ∀ b,
        ∀ op ∈ s.conn.log.drainSince b (session.scanFrom b), Owed s.conn.sent lsn session b op →
          (session.ack acked).scanFrom b ≤ op.lsn
    | _, _ => True

end Service

abbrev Stored (log : Partitions) (appended : List (BucketId × BucketOp)) : Prop :=
  log.KeyedBy fun b op => (b, op) ∈ appended

section
variable {log : Partitions} {sent : List ServerMessage} {appended : List (BucketId × BucketOp)}
variable {lsn : PgLsn} {session : Session}

theorem Stored.append (h : Stored log appended) (wall : UInt64) (b : BucketId) (op : BucketOp) :
    Stored (log.append wall b op.lsn op) (appended ++ [(b, op)]) := by
  have hold : Stored log (appended ++ [(b, op)]) := h.imp fun _ _ => List.mem_append_left _
  exact Partitions.KeyedBy.append hold wall b (by simp)

theorem Owed.of_append {frames : List ServerMessage} {b : BucketId} {op : BucketOp}
    (h : Owed (sent ++ frames) lsn session b op) : Owed sent lsn session b op := by
  obtain ⟨hb, hreport, hlt, hdelta⟩ := h
  refine ⟨hb, fun frame hframe => hreport frame (List.mem_append_left _ hframe), hlt, ?_⟩
  rintro ⟨frame, hframe, hholds⟩
  exact hdelta ⟨frame, List.mem_append_left _ hframe, hholds⟩

theorem Complete.send (h : Complete log sent appended lsn session) (frames : List ServerMessage) :
    Complete log (sent ++ frames) appended lsn session :=
  fun b op hop howed => h b op hop howed.of_append

/-- An append keeps the session complete exactly if its op is owed only above the last seen LSN, and
it overwrites no owed one. -/
theorem Complete.append_iff (h : Complete log sent appended lsn session)
    (hstored : Stored log appended) (wall : UInt64) (c : BucketId) (op : BucketOp) :
    Complete (log.append wall c op.lsn op) sent (appended ++ [(c, op)]) lsn session ↔
      (Owed sent lsn session c op → session.scanFrom c ≤ op.lsn ∧ op.lsn < PgLsn.max) ∧
      ∀ old ∈ log.drainSince c (session.scanFrom c), Owed sent lsn session c old →
        old.lsn = op.lsn → old = op := by
  have hnext := hstored.append wall c op
  constructor
  · intro hcomplete
    constructor
    · intro howed
      have hdue := hnext.mem_drainSince.mp (hcomplete c op (by simp) howed)
      exact ⟨hdue.1, hdue.2.1⟩
    · intro old hold howed hlsn
      obtain ⟨_, _, stored, hget, rfl⟩ := hstored.mem_drainSince.mp hold
      have hmem : (c, stored.op) ∈ appended ++ [(c, op)] :=
        List.mem_append_left _ (hstored c _ stored hget).2
      obtain ⟨_, _, found, hfound, heq⟩ := hnext.mem_drainSince.mp (hcomplete c _ hmem howed)
      rw [Partitions.getElem?_append, if_pos ⟨rfl, hlsn⟩] at hfound
      cases hfound
      exact heq.symm
  · rintro ⟨hnew, hold⟩ b other hother howed
    rw [hnext.mem_drainSince]
    by_cases hat : b = c ∧ other.lsn = op.lsn
    · obtain ⟨rfl, hlsn⟩ := hat
      have hsame : other = op := by
        rcases List.mem_append.mp hother with hmem | hmem
        · exact hold other (h b other hmem howed) howed hlsn
        · simpa using hmem
      subst hsame
      have hdue := hnew howed
      exact ⟨hdue.1, hdue.2, ⟨other, wall⟩, by rw [Partitions.getElem?_append]; simp, rfl⟩
    · have hmem : (b, other) ∈ appended := by
        rcases List.mem_append.mp hother with hmem | hmem
        · exact hmem
        · rw [List.mem_singleton, Prod.mk.injEq] at hmem
          exact absurd ⟨hmem.1, by rw [hmem.2]⟩ hat
      obtain ⟨hle, hlt, stored, hget, heq⟩ :=
        hstored.mem_drainSince.mp (h b other hmem howed)
      exact ⟨hle, hlt, stored, by rw [Partitions.getElem?_append, if_neg hat]; exact hget, heq⟩

/-- A compaction keeps the session complete exactly if it removes nothing that is owed. -/
theorem Complete.compact_iff (h : Complete log sent appended lsn session)
    (hstored : Stored log appended) (cutoff : UInt64) :
    Complete (log.compact cutoff) sent appended lsn session ↔
      ∀ (b : BucketId) (l : PgLsn) (stored : StoredOp), (log b)[l]? = some stored →
        session.scanFrom b ≤ l → l < PgLsn.max → Owed sent lsn session b stored.op →
          cutoff ≤ stored.appendedAtUnixSecs := by
  constructor
  · intro hcomplete b l stored hget hle hlt howed
    have hkey := (hstored b l stored hget).1
    have hdue := hcomplete b stored.op (hstored b l stored hget).2 howed
    obtain ⟨_, _, found, hfound, _⟩ := (hstored.compact cutoff).mem_drainSince.mp hdue
    rw [hkey, Partitions.getElem?_compact, hget] at hfound
    have hkeep := (Option.filter_eq_some_iff.mp hfound).2
    cases (Option.filter_eq_some_iff.mp hfound).1
    simpa using hkeep
  · intro hkeep b op hop howed
    have hdue := h b op hop howed
    obtain ⟨hle, hlt, stored, hget, rfl⟩ := hstored.mem_drainSince.mp hdue
    have hyoung := hkeep b _ stored hget hle hlt howed
    refine (hstored.compact cutoff).mem_drainSince.mpr ⟨hle, hlt, stored, ?_, rfl⟩
    rw [Partitions.getElem?_compact, hget, Option.filter_eq_some_iff]
    exact ⟨rfl, by simpa using hyoung⟩

theorem Complete.rescan_iff (h : Complete log sent appended lsn session)
    (hstored : Stored log appended) {next : Session}
    (hauth : next.authorizedBuckets = session.authorizedBuckets) :
    Complete log sent appended lsn next ↔
      ∀ b, ∀ op ∈ log.drainSince b (session.scanFrom b), Owed sent lsn session b op →
        next.scanFrom b ≤ op.lsn := by
  have howed_iff (b : BucketId) (op : BucketOp) :
      Owed sent lsn next b op ↔ Owed sent lsn session b op := by
    rw [Owed, Owed, Session.wireBucketId, hauth]
    rfl
  constructor
  · intro hcomplete b op hop howed
    obtain ⟨_, _, stored, hget, rfl⟩ := hstored.mem_drainSince.mp hop
    have hdue := hcomplete b stored.op (hstored b _ stored hget).2 ((howed_iff _ _).mpr howed)
    exact (hstored.mem_drainSince.mp hdue).1
  · intro habove b op hop howed
    rw [howed_iff] at howed
    have hdue := h b op hop howed
    have hrest := hstored.mem_drainSince.mp hdue
    exact hstored.mem_drainSince.mpr ⟨habove b op hdue howed, hrest.2⟩

theorem Complete.scan (h : Complete log sent appended lsn session) (c : BucketId) :
    Complete log
      (sent ++ (session.deliver c (log.drainSince c (session.scanFrom c))).1.toList) appended lsn
      (session.deliver c (log.drainSince c (session.scanFrom c))).2 := by
  by_cases hops : log.drainSince c (session.scanFrom c) = []
  · simpa [Session.deliver, hops] using h
  · intro b op hop howed
    simp only [Session.deliver, hops, if_false, Option.toList_some] at howed ⊢
    have hdue := h b op hop (Owed.of_append howed)
    by_cases hbc : b = c
    · subst hbc
      exfalso
      apply howed.2.2.2
      exact ⟨_, List.mem_append_right _ List.mem_cons_self, rfl, List.mem_map_of_mem hdue⟩
    · have hsame : Session.scanFrom { session with
          lastSeenLsn := session.lastSeenLsn.insert c
            (maxLsn (session.scanFrom c) (log.drainSince c (session.scanFrom c))) } b =
          session.scanFrom b := by
        simp only [Session.scanFrom, AList.lookup_insert_ne hbc]
      rw [hsame]
      exact hdue

/-- A session that resumes is complete exactly if all ops above its LSN are in the log. -/
theorem complete_resumed_iff (hstored : Stored log appended)
    (hseen : ∀ b ∈ session.authorizedBuckets, session.lastSeenLsn.lookup b = some lsn) :
    Complete log [] appended lsn session ↔
      ∀ b op, b ∈ session.authorizedBuckets → (b, op) ∈ appended → lsn < op.lsn →
        op.lsn < PgLsn.max ∧ ∃ stored, (log b)[op.lsn]? = some stored ∧ stored.op = op := by
  have hfrom (b : BucketId) (hb : b ∈ session.authorizedBuckets) (op : BucketOp)
      (hlt : lsn < op.lsn) : session.scanFrom b ≤ op.lsn := by
    rw [Session.scanFrom, hseen b hb]
    exact (PgLsn.succ_le_iff (UInt64.lt_of_lt_of_le hlt (PgLsn.le_max _))).mpr hlt
  constructor
  · intro h b op hb hop hlt
    have howed : Owed [] lsn session b op := ⟨hb, by simp, hlt, by simp [DeltaHolds]⟩
    exact (hstored.mem_drainSince.mp (h b op hop howed)).2
  · intro h b op hop howed
    exact hstored.mem_drainSince.mpr
      ⟨hfrom b howed.1 op howed.2.2.1, h b op howed.1 hop howed.2.2.1⟩

end

namespace Service

/-- Before a resumed session serves it has sent nothing, and it starts all its buckets at the resume
LSN, without snapshots. -/
def Opening (s : Service) : Prop :=
  match s.conn.phase with
  | .awaiting => s.conn.sent = []
  | .validating _ resumeLsn | .assigning _ resumeLsn => s.conn.sent = [] ∧ s.resumed = resumeLsn
  | .snapshots session queue => ∀ lsn ∈ s.resumed, s.conn.sent = [] ∧ queue = [] ∧
      ∀ b ∈ session.authorizedBuckets, session.lastSeenLsn.lookup b = some lsn
  | .streaming _ _ _ _ _ => s.resumed = none
  | .serving _ _ | .reporting _ _ | .closed _ => True

structure Followed (s : Service) : Prop where
  stored : Stored s.conn.log s.appended
  opening : s.Opening
  complete : s.NoSilentGap

def Follows (s : Service) (a : ServiceAction) (t : Service) : Prop :=
  Stored t.conn.log t.appended ∧ t.Opening ∧ (t.NoSilentGap ↔ s.Retained a)

variable {s : Service}

theorem opening_log (h : s.Opening) (log : Partitions) (appended : List (BucketId × BucketOp)) :
    Opening { conn := { s.conn with log := log }, appended := appended,
              resumed := s.conn.phase.resumed s.resumed } := by
  rw [Opening] at h ⊢
  cases hphase : s.conn.phase <;> simp_all [Phase.resumed]

theorem follows_append (h : s.Followed) (wall : UInt64) (b : BucketId) (op : BucketOp) :
    s.Follows (.connection (.append wall b op))
      { conn := { s.conn with log := s.conn.log.append wall b op.lsn op },
        appended := s.appended ++ [(b, op)], resumed := s.conn.phase.resumed s.resumed } := by
  refine ⟨h.stored.append wall b op, opening_log h.opening _ _, ?_⟩
  have hcomplete := h.complete
  rw [NoSilentGap] at hcomplete ⊢
  cases hphase : s.conn.phase with
  | serving session scanning =>
    simp only [hphase, Phase.resumed, Retained] at hcomplete ⊢
    exact forall₂_congr fun lsn hlsn => (hcomplete lsn hlsn).append_iff h.stored wall b op
  | awaiting | validating | assigning | snapshots | streaming | reporting | closed =>
    simp [Retained, hphase]

theorem follows_compact (h : s.Followed) (cutoff : UInt64) :
    s.Follows (.connection (.compact cutoff))
      { conn := { s.conn with log := s.conn.log.compact cutoff },
        appended := s.appended ++ [], resumed := s.conn.phase.resumed s.resumed } := by
  rw [List.append_nil]
  refine ⟨h.stored.compact cutoff, opening_log h.opening _ _, ?_⟩
  have hcomplete := h.complete
  rw [NoSilentGap] at hcomplete ⊢
  cases hphase : s.conn.phase with
  | serving session scanning =>
    simp only [hphase, Phase.resumed, Retained] at hcomplete ⊢
    exact forall₂_congr fun lsn hlsn => (hcomplete lsn hlsn).compact_iff h.stored cutoff
  | awaiting | validating | assigning | snapshots | streaming | reporting | closed =>
    simp [Retained, hphase]

section
variable {a : ConnectionAction} {conn : Connection}

theorem follows_of_not_serving (h : s.Followed) (ha : a.appended = [])
    (hlog : conn.log = s.conn.log)
    (hphase : ∀ session scanning, conn.phase ≠ .serving session scanning)
    (hretained : s.Retained (.connection a))
    (hopening : Opening ⟨conn, s.appended, conn.phase.resumed s.resumed⟩) :
    s.Follows (.connection a)
      ⟨conn, s.appended ++ a.appended, conn.phase.resumed s.resumed⟩ := by
  rw [ha, List.append_nil]
  refine ⟨hlog ▸ h.stored, hopening, iff_of_true ?_ hretained⟩
  rw [NoSilentGap]
  cases hnext : conn.phase with
  | serving session scanning => exact absurd hnext (hphase session scanning)
  | awaiting | validating | assigning | snapshots | streaming | reporting | closed => trivial

theorem follows_closed (h : s.Followed) (ha : a.appended = []) (hlog : conn.log = s.conn.log)
    {result : Except SyncError Unit} (hphase : conn.phase = .closed result)
    (hretained : s.Retained (.connection a)) :
    s.Follows (.connection a)
      ⟨conn, s.appended ++ a.appended, conn.phase.resumed s.resumed⟩ :=
  follows_of_not_serving h ha hlog (by simp [hphase]) hretained (by simp [Opening, hphase])

theorem follows_reporting (h : s.Followed) (ha : a.appended = []) (hlog : conn.log = s.conn.log)
    {reason : Option SyncError} {socketFailed : Bool}
    (hphase : conn.phase = .reporting reason socketFailed)
    (hretained : s.Retained (.connection a)) :
    s.Follows (.connection a)
      ⟨conn, s.appended ++ a.appended, conn.phase.resumed s.resumed⟩ :=
  follows_of_not_serving h ha hlog (by simp [hphase]) hretained (by simp [Opening, hphase])

theorem follows_serving (h : s.Followed) {session next : Session}
    {scanning remaining : List BucketId} (hphase : s.conn.phase = .serving session scanning)
    (ha : a.appended = []) (hlog : conn.log = s.conn.log)
    (hnext : conn.phase = .serving next remaining)
    (hiff : ∀ lsn ∈ s.resumed, Complete s.conn.log s.conn.sent s.appended lsn session →
      Complete s.conn.log conn.sent s.appended lsn next)
    (hretained : s.Retained (.connection a)) :
    s.Follows (.connection a)
      ⟨conn, s.appended ++ a.appended, conn.phase.resumed s.resumed⟩ := by
  have hcomplete := h.complete
  rw [NoSilentGap, hphase] at hcomplete
  rw [ha, List.append_nil, hnext]
  refine ⟨hlog ▸ h.stored, by simp [Opening, hnext], iff_of_true ?_ hretained⟩
  simp only [NoSilentGap, hnext, hlog]
  exact fun lsn hlsn => hiff lsn hlsn (hcomplete lsn hlsn)

end

theorem follows_ack (h : s.Followed) {session : Session}
    (hphase : s.conn.phase = .serving session []) (acked : PgLsn) (nowMs : UInt64)
    (outcome : WriteOutcome) :
    s.Follows (.connection (.incoming (.binary (.ok (.ack acked))) nowMs outcome))
      ⟨{ s.conn with phase := .serving (session.ack acked) [] }, s.appended ++ [], s.resumed⟩ := by
  have hcomplete := h.complete
  rw [NoSilentGap, hphase] at hcomplete
  rw [List.append_nil]
  refine ⟨h.stored, trivial, ?_⟩
  simp only [NoSilentGap, Retained, hphase]
  exact forall₂_congr fun lsn hlsn => (hcomplete lsn hlsn).rescan_iff h.stored rfl

theorem follows_receive (h : s.Followed) {session : Session}
    (hphase : s.conn.phase = .serving session []) (msg : Incoming) (nowMs : UInt64)
    (outcome : WriteOutcome) :
    s.Follows (.connection (.incoming msg nowMs outcome))
      ⟨s.conn.receive session nowMs outcome msg, s.appended ++ [],
        (s.conn.receive session nowMs outcome msg).phase.resumed s.resumed⟩ := by
  have hquiet (frame : ServerMessage) (lsn : PgLsn) (_ : lsn ∈ s.resumed)
      (hcomplete : Complete s.conn.log s.conn.sent s.appended lsn session) :
      Complete s.conn.log (s.conn.sent ++ [frame]) s.appended lsn session :=
    hcomplete.send [frame]
  have hsame (lsn : PgLsn) (_ : lsn ∈ s.resumed)
      (hcomplete : Complete s.conn.log s.conn.sent s.appended lsn session) :
      Complete s.conn.log s.conn.sent s.appended lsn session := hcomplete
  cases msg with
  | ended | close | failed =>
    exact follows_closed h rfl rfl rfl (by simp [Retained, hphase])
  | other => exact follows_serving h hphase rfl rfl hphase hsame (by simp [Retained, hphase])
  | binary decoded =>
    cases decoded with
    | error error =>
      exact follows_serving h hphase rfl rfl hphase (hquiet _) (by simp [Retained, hphase])
    | ok msg =>
      cases msg with
      | ack lsn => exact follows_ack h hphase lsn nowMs outcome
      | write entityType entityId op =>
        cases outcome with
        | applied => exact follows_serving h hphase rfl rfl rfl hsame (by simp [Retained, hphase])
        | refused e =>
          exact follows_serving h hphase rfl rfl rfl (hquiet _) (by simp [Retained, hphase])
        | failed e => exact follows_closed h rfl rfl rfl (by simp [Retained, hphase])
      | ping => exact follows_serving h hphase rfl rfl rfl (hquiet _) (by simp [Retained, hphase])
      | subscribe buckets token resumeLsn version =>
        exact follows_serving h hphase rfl rfl rfl (hquiet _) (by simp [Retained, hphase])

theorem follows_subscribe (h : s.Followed) (hphase : s.conn.phase = .awaiting) (msg : Incoming)
    (nowMs : UInt64) (outcome : WriteOutcome) :
    s.Follows (.connection (.incoming msg nowMs outcome))
      ⟨s.conn.subscribe msg, s.appended ++ [],
        (s.conn.subscribe msg).phase.resumed s.resumed⟩ := by
  have hopening := h.opening
  rw [Opening, hphase] at hopening
  have hretained : s.Retained (.connection (.incoming msg nowMs outcome)) := by
    simp [Retained, hphase]
  rcases s.conn.subscribe_cases msg with ⟨e, he, _⟩ | ⟨e, socketFailed, he, _⟩ |
    ⟨buckets, token, resumeLsn, version, rfl, _⟩
  · rw [he]
    exact follows_closed h rfl rfl rfl hretained
  · rw [he]
    exact follows_reporting h rfl rfl rfl hretained
  · exact follows_of_not_serving h rfl rfl (by simp [Connection.subscribe]) hretained
      ⟨hopening, rfl⟩

theorem freshBuckets_handshake (assignments : List BucketAssignment) (requested : List String)
    (lsn : PgLsn) : (handshake assignments requested (some lsn)).freshBuckets = [] := by
  rw [Session.freshBuckets, List.filter_eq_nil_iff]
  intro b hb
  simp [lookup_lastSeen_handshake, AList.mem_keys.mpr hb]

theorem follows_assign (h : s.Followed) {claims : TokenClaims} {resumeLsn : Option PgLsn}
    (hphase : s.conn.phase = .assigning claims resumeLsn) {a : ConnectionAction}
    (ha : a.appended = []) (hretained : s.Retained (.connection a))
    (assignments : List BucketAssignment) {order : List BucketId}
    (horder : order.Perm (handshake assignments s.conn.requested resumeLsn).freshBuckets) :
    s.Follows (.connection a)
      ⟨{ s.conn with phase := .snapshots (handshake assignments s.conn.requested resumeLsn) order,
                     assigned := some assignments }, s.appended ++ a.appended, s.resumed⟩ := by
  have hopening := h.opening
  rw [Opening, hphase] at hopening
  refine follows_of_not_serving h ha ?_ (by simp) hretained ?_
  · rfl
  intro lsn hlsn
  have hresume : resumeLsn = some lsn := hopening.2.symm.trans hlsn
  subst hresume
  refine ⟨hopening.1, ?_, ?_⟩
  · rw [freshBuckets_handshake] at horder
    exact horder.eq_nil
  · intro b hb
    rw [lookup_lastSeen_handshake, if_pos hb]

theorem follows_serve (h : s.Followed) {session : Session}
    (hphase : s.conn.phase = .snapshots session []) :
    s.Follows (.connection .serve)
      ⟨{ s.conn with phase := .serving session [] }, s.appended ++ [], s.resumed⟩ := by
  have hopening := h.opening
  rw [Opening, hphase] at hopening
  rw [List.append_nil]
  refine ⟨h.stored, trivial, ?_⟩
  simp only [NoSilentGap, Retained, hphase]
  refine forall₂_congr fun lsn hlsn => ?_
  obtain ⟨hsent, _, hseen⟩ := hopening lsn hlsn
  rw [hsent]
  exact complete_resumed_iff h.stored hseen

theorem follows_scan (h : s.Followed) {session : Session} {scanning : List BucketId}
    (hphase : s.conn.phase = .serving session scanning) {conn : Connection}
    (hpoll : s.conn.poll session scanning .scan = some conn) :
    s.Follows (.connection (.scan none))
      ⟨conn, s.appended ++ [], conn.phase.resumed s.resumed⟩ := by
  obtain ⟨d, hd, rfl⟩ := Option.map_eq_some_iff.mp hpoll
  rw [Delivery.step] at hd
  split at hd
  · cases hd
  · next b rest heq =>
    cases hd
    refine follows_serving h hphase rfl rfl rfl ?_ (by simp [Retained, hphase])
    intro lsn _ hcomplete
    simpa using hcomplete.scan b

theorem follows_startPoll (h : s.Followed) {session : Session} {scanning order : List BucketId}
    (hphase : s.conn.phase = .serving session scanning) {conn : Connection}
    (hpoll : s.conn.poll session scanning (.startPoll order) = some conn) :
    s.Follows (.connection (.startPoll order))
      ⟨conn, s.appended ++ [], conn.phase.resumed s.resumed⟩ := by
  obtain ⟨d, hd, rfl⟩ := Option.map_eq_some_iff.mp hpoll
  rw [Delivery.step] at hd
  split at hd
  · cases hd
    refine follows_serving h hphase rfl rfl rfl ?_ (by simp [Retained, hphase])
    intro lsn _ hcomplete
    simpa using hcomplete
  · cases hd

theorem follows_connection (h : s.Followed) {a : ConnectionAction} {conn : Connection}
    (hstep : s.conn.step a = some conn) :
    s.Follows (.connection a)
      ⟨conn, s.appended ++ a.appended, conn.phase.resumed s.resumed⟩ := by
  have hopening := h.opening
  rw [Opening] at hopening
  cases Connection.steps_of_step hstep with
  | append wall b op => exact follows_append h wall b op
  | compact cutoff => exact follows_compact h cutoff
  | subscribe msg nowMs outcome hphase => exact follows_subscribe h hphase msg nowMs outcome
  | receive msg nowMs outcome hphase => exact follows_receive h hphase msg nowMs outcome
  | rejected e hphase | unassigned hphase | scanFailed e hphase | shutdown hphase
  | deltaFailed error hphase =>
    exact follows_reporting h rfl rfl rfl (by simp [Retained, hphase])
  | snapshotFailed e hphase | batchFailed e hphase =>
    exact follows_closed h rfl rfl rfl (by simp [Retained, hphase])
  | report sent hphase =>
    exact follows_closed h rfl (s.conn.log_report _ sent) rfl (by simp [Retained, hphase])
  | sendFailed error =>
    refine follows_closed h rfl rfl rfl ?_
    cases hphase : s.conn.phase <;> simp [Retained, hphase]
  | validated claims hphase =>
    rw [hphase] at hopening
    refine follows_of_not_serving h rfl rfl (by simp) (by simp [Retained, hphase]) ?_
    exact ⟨hopening.1, rfl⟩
  | assigned hphase hassign horder =>
    exact follows_assign h hphase rfl (by simp [Retained, hphase]) _ horder
  | beginSnapshot checksum hphase =>
    rw [hphase] at hopening
    refine follows_of_not_serving h rfl rfl (by simp [Connection.send])
      (by simp [Retained, hphase]) ?_
    -- A session that begins a snapshot has not resumed.
    cases hresumed : s.resumed with
    | none => rfl
    | some lsn => exact absurd (hopening lsn hresumed).2.1 (by simp)
  | batch rows hphase =>
    rw [hphase] at hopening
    exact follows_of_not_serving h rfl rfl (by simp [Connection.send])
      (by simp [Retained, hphase]) hopening
  | endSnapshot hphase =>
    rw [hphase] at hopening
    refine follows_of_not_serving h rfl rfl (by simp [Connection.send])
      (by simp [Retained, hphase]) ?_
    intro lsn hlsn
    rw [show s.resumed = some lsn from hlsn] at hopening
    cases hopening
  | serve hphase => exact follows_serve h hphase
  | startPoll hphase hpoll => exact follows_startPoll h hphase hpoll
  | scan hphase hpoll => exact follows_scan h hphase hpoll
  | keepalive nowMs hphase =>
    exact follows_serving h hphase rfl rfl hphase (fun _ _ hcomplete => hcomplete.send _)
      (by simp [Retained, hphase])

theorem Followed.step (h : s.Followed) {a : ServiceAction} {t : Service}
    (hstep : s.step a = some t) : s.Follows a t := by
  cases a with
  | connection a =>
    obtain ⟨conn, hconn, rfl⟩ := Option.map_eq_some_iff.mp hstep
    exact follows_connection h hconn
  | reconnect =>
    cases hstep
    exact ⟨h.stored, rfl, iff_of_true trivial trivial⟩

/-- Over all runs of appends, compactions and connections: no resumed client ever misses an op
without being told exactly if the log retains what its session owes. -/
theorem noSilentGap_iff (as : List ServiceAction) :
    Always step NoSilentGap start as ↔ Meets step Retained start as := by
  apply always_iff_meets (J := Followed) (E := fun _ _ => True) (fun _ h => h.complete)
    (fun _ _ _ h _ hstep => (h.step hstep).2.2)
  · intro s a t h _ hstep hcomplete
    exact ⟨(h.step hstep).1, (h.step hstep).2.1, hcomplete⟩
  · exact meets_of_forall fun _ _ => trivial
  · exact ⟨Partitions.keyedBy_empty, rfl, trivial⟩

/-- Once a scan has nothing left to send, the Deltas hold everything. -/
theorem NoSilentGap.deltaHolds (h : s.NoSilentGap) {session : Session} {scanning : List BucketId}
    (hphase : s.conn.phase = .serving session scanning) {lsn : PgLsn} (hlsn : s.resumed = some lsn)
    {b : BucketId} (hb : b ∈ session.authorizedBuckets)
    (hsilent : ∀ frame ∈ s.conn.sent, reportsGap (session.wireBucketId b) frame = false)
    (hdone : s.conn.log.drainSince b (session.scanFrom b) = []) {op : BucketOp}
    (hop : (b, op) ∈ s.appended) (hlt : lsn < op.lsn) :
    DeltaHolds s.conn.sent (session.wireBucketId b) op := by
  rw [NoSilentGap, hphase] at h
  by_contra hheld
  have hdue := h lsn hlsn b op hop ⟨hb, hsilent, hlt, hheld⟩
  simp [hdone] at hdue

private def ownerBucket : BucketId := (Rules.ownerAssignment "42").bucketId

private def deletion : BucketOp := ⟨3, ownerBucket, "entities", "a", .delete⟩

/-- A client resumes from LSN 0 after the op of LSN 3 was compacted away: it is sent nothing at
all. -/
theorem compacted_op_silently_missing :
    ∃ t, run step start
        [.connection (.append 0 ownerBucket deletion), .connection (.compact 1),
          .connection (.incoming
            (.binary (.ok (.subscribe ["user_entities"] "token" (some 0) 1))) 0 .applied),
          .connection (.validate (.ok ⟨"alice", 1⟩)),
          .connection (.assign Rules.ownerAssigner ⟨0, 0⟩ (Rules.answerUser "42") []),
          .connection .serve, .connection (.startPoll [ownerBucket]),
          .connection (.scan none)] = some t ∧
      t.conn.sent = [] ∧ t.appended = [(ownerBucket, deletion)] ∧ ¬t.NoSilentGap :=
  ⟨_, rfl, by decide +kernel, by decide +kernel, by decide +kernel⟩

end Service

end EntitySync.Gateway
