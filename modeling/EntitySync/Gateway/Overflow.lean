import EntitySync.Gateway.Connection

/-!
# The cursor at the end of the LSN range

`poll_deltas` starts the scan of a bucket at `lsn.0 + 1`, one past its last seen LSN. `Subscribe`
and `Ack` carry any `u64` and neither is checked, so a client can raise the cursor to `u64::MAX`.
The addition then panics in a debug build and wraps to 0 in a release build.
-/

namespace EntitySync.Gateway

open Oplog (Partitions StoredOp)
open StepSystem

/-- `lsn.0 + 1` in a debug build, where an overflow is a panic. -/
def checkedSucc (lsn : PgLsn) : Option PgLsn :=
  if lsn.toNat + 1 < UInt64.size then some (lsn + 1) else none

theorem checkedSucc_max : checkedSucc PgLsn.max = none := by decide

theorem checkedSucc_of_lt {lsn : PgLsn} (h : lsn < PgLsn.max) :
    checkedSucc lsn = some (lsn + 1) := by
  have hlt : lsn.toNat < UInt64.size - 1 := UInt64.lt_iff_toNat_lt.mp h
  rw [checkedSucc, if_pos (by omega)]

/-- The scan of a tracked bucket starts at the successor of its last seen LSN, in both builds, and
yields only ops above it. -/
structure CursorExact (log : Partitions) (session : Session) : Prop where
  successor : ∀ b m, session.lastSeenLsn.lookup b = some m →
    (session.scanFrom b).toNat = m.toNat + 1
  noPanic : ∀ b m, session.lastSeenLsn.lookup b = some m →
    checkedSucc m = some (session.scanFrom b)
  noRepeat : ∀ b m, session.lastSeenLsn.lookup b = some m →
    ∀ op ∈ log.drainSince b (session.scanFrom b), m < op.lsn

abbrev KeyedByLsn (log : Partitions) : Prop := log.KeyedBy fun _ _ => True

def Session.BelowMax (session : Session) : Prop :=
  ∀ b m, session.lastSeenLsn.lookup b = some m → m < PgLsn.max

theorem cursorExact_iff {log : Partitions} (hlog : KeyedByLsn log) (session : Session) :
    CursorExact log session ↔ session.BelowMax := by
  constructor
  · intro h b m hm
    have hsucc := h.noPanic b m hm
    by_contra hmax
    have heq : m = PgLsn.max := UInt64.le_antisymm (PgLsn.le_max m) (UInt64.not_lt.mp hmax)
    rw [heq, checkedSucc_max] at hsucc
    cases hsucc
  · intro h
    have hfrom (b : BucketId) (m : PgLsn) (hm : session.lastSeenLsn.lookup b = some m) :
        session.scanFrom b = m + 1 := by
      rw [Session.scanFrom, hm]
    constructor
    · intro b m hm
      rw [hfrom b m hm, PgLsn.toNat_succ (h b m hm)]
    · intro b m hm
      rw [hfrom b m hm, checkedSucc_of_lt (h b m hm)]
    · intro b m hm op hop
      have hlow := (hlog.mem_drainSince.mp hop).1
      rw [hfrom b m hm] at hlow
      exact (PgLsn.succ_le_iff (h b m hm)).mp hlow

theorem belowMax_handshake (assignments : List BucketAssignment) (requested : List String)
    (resumeLsn : Option PgLsn) :
    (handshake assignments requested resumeLsn).BelowMax ↔
      (resumeLsn = some PgLsn.max → ∀ a ∈ assignments, a.ruleId ∉ requested) := by
  constructor
  · intro h hresume a ha hrequested
    have hmem : a.bucketId ∈ (handshake assignments requested resumeLsn).authorizedBuckets :=
      mem_authorize.mpr ⟨a, ha, hrequested, rfl⟩
    have hlookup := lookup_lastSeen_handshake assignments requested resumeLsn a.bucketId
    rw [if_pos hmem, hresume] at hlookup
    have hlt := h a.bucketId PgLsn.max (hresume ▸ hlookup)
    exact absurd hlt (UInt64.lt_irrefl _)
  · intro h b m hm
    rw [lookup_lastSeen_handshake] at hm
    split at hm
    next hmem =>
      obtain ⟨a, ha, hrequested, _⟩ := mem_authorize.mp hmem
      apply UInt64.lt_of_le_of_ne (PgLsn.le_max m)
      intro heq
      exact h (heq ▸ hm) a ha hrequested
    next => cases hm

theorem Session.BelowMax.ack {session : Session} (h : session.BelowMax) (lsn : PgLsn) :
    (session.ack lsn).BelowMax ↔
      (lsn = PgLsn.max → ∀ b, session.lastSeenLsn.lookup b = none) := by
  constructor
  · intro hack hmax b
    cases hm : session.lastSeenLsn.lookup b with
    | none => rfl
    | some m =>
      have hlookup := session.lookup_ack lsn b
      have hlt : m < lsn := hmax ▸ h b m hm
      rw [hm, Option.map_some, if_pos hlt, hmax] at hlookup
      have hbelow := hack b PgLsn.max (hmax ▸ hlookup)
      exact absurd hbelow (UInt64.lt_irrefl _)
  · intro hack b m' hm'
    obtain ⟨m, hm, rfl | rfl⟩ := Session.lookup_of_ack hm'
    · exact h b m' hm
    · apply UInt64.lt_of_le_of_ne (PgLsn.le_max m')
      intro hmax
      have hnone := hack hmax b
      rw [hm] at hnone
      cases hnone

theorem Session.BelowMax.deliver {log : Partitions} (hlog : KeyedByLsn log) {session : Session}
    (h : session.BelowMax) (b : BucketId) (fromLsn : PgLsn) :
    (session.deliver b (log.drainSince b fromLsn)).2.BelowMax := by
  by_cases hops : log.drainSince b fromLsn = []
  · simpa [Session.deliver, hops] using h
  · obtain ⟨op, hop, heq⟩ := (maxLsn_spec (session.scanFrom b) hops).2
    simp only [Session.deliver, hops, if_false]
    intro c m hm
    simp only at hm
    by_cases hc : c = b
    · subst hc
      rw [AList.lookup_insert, Option.some.injEq] at hm
      rw [← hm, ← heq]
      exact (hlog.mem_drainSince.mp hop).2.1
    · rw [AList.lookup_insert_ne hc] at hm
      exact h c m hm

namespace Connection

def CursorsExact (s : Connection) : Prop :=
  ∀ session, s.phase.session = some session → CursorExact s.log session

/-- The step brings no tracked bucket to `u64::MAX`: neither by a resume LSN with some requested
bucket assigned, nor by an Ack with some bucket tracked. -/
def StaysBelowMax (s : Connection) : ConnectionAction → Prop
  | .assign assigner clock db _ =>
    ∀ claims assignments, s.phase = .assigning claims (some PgLsn.max) →
      (assigner.assign clock db claims).1 = .ok assignments →
        ∀ a ∈ assignments, a.ruleId ∉ s.requested
  | .incoming (.binary (.ok (.ack lsn))) _ _ =>
    lsn = PgLsn.max → ∀ session, s.phase.session = some session →
      ∀ b, session.lastSeenLsn.lookup b = none
  | _ => True

variable {s t : Connection}

def BelowMax (s : Connection) : Prop :=
  ∀ session, s.phase.session = some session → session.BelowMax

theorem cursorsExact_iff (hlog : KeyedByLsn s.log) : s.CursorsExact ↔ s.BelowMax :=
  forall₂_congr fun session _ => cursorExact_iff hlog session

theorem belowMax_of_none (h : s.phase.session = none) : s.BelowMax := by
  intro session hsession
  rw [h] at hsession
  cases hsession

theorem belowMax_of_some {session : Session} (h : s.phase.session = some session) :
    s.BelowMax ↔ session.BelowMax := by
  constructor
  · intro hs
    exact hs session h
  · intro hs other hother
    rw [h, Option.some.injEq] at hother
    exact hother ▸ hs

theorem log_subscribe (s : Connection) (msg : Incoming) : (s.subscribe msg).log = s.log := by
  rcases s.subscribe_cases msg with ⟨_, he, _⟩ | ⟨_, _, he, _⟩ | ⟨_, _, _, _, _, he⟩
  · rw [he]
    rfl
  · rw [he]
  · rw [he]

theorem log_receive (s : Connection) (session : Session) (nowMs : UInt64) (outcome : WriteOutcome)
    (msg : Incoming) : (s.receive session nowMs outcome msg).log = s.log := by
  cases msg with
  | ended | failed | other | close => rfl
  | binary decoded =>
    cases decoded with
    | error error => rfl
    | ok msg =>
      cases msg with
      | write entityType entityId op => cases outcome <;> rfl
      | subscribe | ack | ping => rfl

theorem keyedByLsn_of_step {a : ConnectionAction} (h : s.step a = some t)
    (hlog : KeyedByLsn s.log) : KeyedByLsn t.log := by
  cases steps_of_step h with
  | append wall b op => exact hlog.append wall b trivial
  | compact cutoff => exact hlog.compact cutoff
  | subscribe msg nowMs outcome hphase => rwa [log_subscribe]
  | receive msg nowMs outcome hphase => rwa [log_receive]
  | startPoll hphase hpoll | scan hphase hpoll =>
    obtain ⟨d, _, rfl⟩ := Option.map_eq_some_iff.mp hpoll
    exact hlog
  | report sent hphase => rwa [log_report]
  | rejected | validated | unassigned | assigned | snapshotFailed | beginSnapshot | batchFailed
  | batch | endSnapshot | serve | scanFailed | keepalive | shutdown | sendFailed | deltaFailed =>
    exact hlog

theorem belowMax_subscribe (s : Connection) (msg : Incoming) : (s.subscribe msg).BelowMax := by
  apply belowMax_of_none
  rcases s.subscribe_cases msg with ⟨_, he, _⟩ | ⟨_, _, he, _⟩ | ⟨_, _, _, _, _, he⟩ <;>
    rw [he] <;> rfl

theorem belowMax_receive {session : Session} (hs : session.BelowMax)
    (hphase : s.phase = .serving session []) (nowMs : UInt64) (outcome : WriteOutcome)
    (msg : Incoming) :
    (s.receive session nowMs outcome msg).BelowMax ↔
      s.StaysBelowMax (.incoming msg nowMs outcome) := by
  have hsession : s.phase.session = some session := by rw [hphase]; rfl
  have hstay : s.BelowMax := (belowMax_of_some hsession).mpr hs
  have hnext (t : Connection) (ht : t.phase = .serving session []) : t.BelowMax :=
    (belowMax_of_some (by rw [ht]; rfl)).mpr hs
  cases msg with
  | ended | close | failed => exact iff_of_true (belowMax_of_none rfl) trivial
  | other => exact iff_of_true hstay trivial
  | binary decoded =>
    cases decoded with
    | error error => exact iff_of_true hstay trivial
    | ok msg =>
      cases msg with
      | ack lsn =>
        rw [belowMax_of_some (s := s.receive session nowMs outcome _) rfl]
        rw [Session.handleClientMessage, hs.ack, StaysBelowMax]
        simp only [hsession, Option.some.injEq, forall_eq']
      | write entityType entityId op =>
        cases outcome with
        | applied | refused => exact iff_of_true (hnext _ rfl) trivial
        | failed e => exact iff_of_true (belowMax_of_none rfl) trivial
      | ping => exact iff_of_true (hnext _ rfl) trivial
      | subscribe => exact iff_of_true (hnext _ rfl) trivial

theorem belowMax_poll {session : Session} {scanning : List BucketId} {a : DeliveryAction}
    (hlog : KeyedByLsn s.log) (hs : session.BelowMax)
    (ha : a = .scan ∨ ∃ order, a = .startPoll order) (h : s.poll session scanning a = some t) :
    t.BelowMax := by
  obtain ⟨d, hd, rfl⟩ := Option.map_eq_some_iff.mp h
  rw [@belowMax_of_some _ d.session rfl]
  rcases ha with rfl | ⟨order, rfl⟩
  · rw [Delivery.step] at hd
    split at hd <;> cases hd
    exact hs.deliver hlog _ _
  · rw [Delivery.step] at hd
    split at hd <;> cases hd
    exact hs

theorem BelowMax.of_phase (hs : s.BelowMax) (h : t.phase.session = s.phase.session) :
    t.BelowMax := by
  intro session hsession
  exact hs session (h ▸ hsession)

theorem belowMax_of_step {a : ConnectionAction} (hlog : KeyedByLsn s.log) (hs : s.BelowMax)
    (h : s.step a = some t) : t.BelowMax ↔ s.StaysBelowMax a := by
  cases steps_of_step h with
  | append | compact | keepalive => exact iff_of_true (hs.of_phase rfl) trivial
  | subscribe msg nowMs outcome hphase =>
    refine iff_of_true (s.belowMax_subscribe msg) ?_
    rw [StaysBelowMax.eq_def]
    split
    next heq => cases heq
    next =>
      intro _ session hsession
      rw [hphase] at hsession
      cases hsession
    next => trivial
  | receive msg nowMs outcome hphase =>
    have hsession := (belowMax_of_some (by rw [hphase]; rfl)).mp hs
    exact belowMax_receive hsession hphase nowMs outcome msg
  | rejected | validated | snapshotFailed | batchFailed | scanFailed | shutdown | report
  | sendFailed | deltaFailed =>
    exact iff_of_true (belowMax_of_none rfl) trivial
  | unassigned hphase hassign =>
    refine iff_of_true (belowMax_of_none rfl) ?_
    intro claims assignments hassigning hok
    rw [hphase] at hassigning
    cases hassigning
    rw [hassign] at hok
    cases hok
  | assigned hphase hassign horder =>
    rw [belowMax_of_some rfl, belowMax_handshake, StaysBelowMax]
    simp only [hphase, Phase.assigning.injEq]
    constructor
    · rintro hresume claims assignments ⟨rfl, hmax⟩ hok
      rw [hassign] at hok
      cases hok
      exact hresume hmax
    · intro hresume hmax
      exact hresume _ _ ⟨rfl, hmax⟩ hassign
  | beginSnapshot _ hphase | batch _ hphase | endSnapshot hphase | serve hphase =>
    refine iff_of_true (hs.of_phase ?_) trivial
    rw [hphase]
    rfl
  | startPoll hphase hpoll =>
    have hsession := (belowMax_of_some (by rw [hphase]; rfl)).mp hs
    exact iff_of_true (belowMax_poll hlog hsession (Or.inr ⟨_, rfl⟩) hpoll) trivial
  | scan hphase hpoll =>
    have hsession := (belowMax_of_some (by rw [hphase]; rfl)).mp hs
    exact iff_of_true (belowMax_poll hlog hsession (Or.inl rfl) hpoll) trivial

/-- In every run of a connection against a log built by appends and compactions, all cursors stay
exact if and only if no step brings a tracked bucket to `u64::MAX`. -/
theorem cursorsExact_run_iff (as : List ConnectionAction) :
    Always step CursorsExact (start Partitions.empty) as ↔
      Meets step StaysBelowMax (start Partitions.empty) as := by
  apply always_iff_meets (J := fun s => KeyedByLsn s.log ∧ s.BelowMax) (E := fun _ _ => True)
  · intro s hs
    exact (cursorsExact_iff hs.1).mpr hs.2
  · intro s a t hs _ hstep
    rw [cursorsExact_iff (keyedByLsn_of_step hstep hs.1)]
    exact belowMax_of_step hs.1 hs.2 hstep
  · intro s a t hs _ hstep ht
    have hlog := keyedByLsn_of_step hstep hs.1
    exact ⟨hlog, (cursorsExact_iff hlog).mp ht⟩
  · exact meets_of_forall fun _ _ => trivial
  · exact ⟨Partitions.keyedBy_empty, belowMax_of_none rfl⟩

/-- An Ack of `u64::MAX`: every further poll sends the whole partition again, and in a debug build
the poll panics. -/
theorem cursor_wraps_after_ack :
    let b := (Rules.ownerAssignment "42").bucketId
    let op : BucketOp := ⟨3, b, "entities", "a", .delete⟩
    let frame : ServerMessage := .delta ⟨"user_entities"⟩ [rewire ⟨"user_entities"⟩ op] 3
    let as : List ConnectionAction :=
      [.incoming (.binary (.ok (.subscribe ["user_entities"] "token" (some 0) 1))) 0 .applied,
        .validate (.ok ⟨"alice", 1⟩),
        .assign Rules.ownerAssigner ⟨0, 0⟩ (Rules.answerUser "42") [], .serve,
        .append 0 b op, .startPoll [b], .scan none,
        .incoming (.binary (.ok (.ack PgLsn.max))) 0 .applied]
    ¬Always step CursorsExact (start Partitions.empty) as ∧
      (run step (start Partitions.empty) (as ++ [.startPoll [b], .scan none])).map sent =
        some [frame, frame] ∧
      checkedSucc PgLsn.max = none := by
  refine ⟨?_, by decide +kernel, by decide⟩
  intro h
  have hend := always_iff.mp h _ [] _ (List.append_nil _).symm rfl
  have hsucc := (hend _ rfl).successor (Rules.ownerAssignment "42").bucketId PgLsn.max rfl
  exact absurd hsucc (by decide +kernel)

end Connection

end EntitySync.Gateway
