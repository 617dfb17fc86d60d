import EntitySync.Gateway.Write

/-!
# Redaction

`GatewayErrorResponse` shows a client only the kind of an error. Two connections whose internal
errors agree up to their details therefore send the same frames: no branch of the connection looks
at the details either.
-/

namespace EntitySync

def SyncError.SameVariant : SyncError → SyncError → Prop
  | .bucketAssignmentFailed _, .bucketAssignmentFailed _ | .lsnGap _ _, .lsnGap _ _
  | .checksumMismatch _ _, .checksumMismatch _ _ | .protocolError _, .protocolError _
  | .authError _, .authError _ | .database _, .database _ => True
  | _, _ => False

theorem SyncError.sameVariant_refl (e : SyncError) : e.SameVariant e := by
  cases e <;> trivial

namespace Gateway

open Json (Value)
open Oplog (Partitions)
open Rules (BucketAssigner Clock Database)
open StepSystem

/-- The same data, or errors of the same variant. -/
inductive SameOutcome {α : Type} : Except SyncError α → Except SyncError α → Prop
  | ok (x : α) : SameOutcome (.ok x) (.ok x)
  | error {e e' : SyncError} (h : e.SameVariant e') : SameOutcome (.error e) (.error e')

/-- The same frame of the client. Where a frame does not decode or the WebSocket fails, the text of
the error may differ. -/
inductive SameIncoming : Incoming → Incoming → Prop
  | same (msg : Incoming) : SameIncoming msg msg
  | undecodable (error error' : String) :
    SameIncoming (.binary (.error error)) (.binary (.error error'))
  | failed (error error' : String) : SameIncoming (.failed error) (.failed error')

inductive SameWriteOutcome : WriteOutcome → WriteOutcome → Prop
  | applied : SameWriteOutcome .applied .applied
  | refused {e e' : SyncError} (h : e.SameVariant e') : SameWriteOutcome (.refused e) (.refused e')
  | failed {e e' : SyncError} (h : e.SameVariant e') : SameWriteOutcome (.failed e) (.failed e')

theorem SameWriteOutcome.refl (outcome : WriteOutcome) : SameWriteOutcome outcome outcome := by
  cases outcome with
  | applied => exact .applied
  | refused e => exact .refused e.sameVariant_refl
  | failed e => exact .failed e.sameVariant_refl

theorem errorFrame_congr {e e' : SyncError} (h : e.SameVariant e') :
    errorFrame e = errorFrame e' := by
  cases e <;> cases e' <;> first | rfl | exact h.elim

namespace WriteTask

/-- What one step of `handle_write` meets: the database, the failure of its statement if it fails,
and the CRDT library. -/
structure Statement where
  db : Db
  failed : Option String
  applyDelta : List UInt8 → List UInt8 → Except String (List UInt8)

structure SameStatement (x y : Statement) : Prop where
  db : y.db = x.db
  failed : y.failed.isSome = x.failed.isSome
  merge : ∀ state patch, (y.applyDelta state patch).toOption = (x.applyDelta state patch).toOption

inductive SameStage : WriteStage → WriteStage → Prop
  | same (stage : WriteStage) : SameStage stage stage
  | finished {outcome outcome' : WriteOutcome} (h : SameWriteOutcome outcome outcome') :
    SameStage (.finished outcome) (.finished outcome')

def handling (selects : Db → String → String → Bool) (task : WriteTask) (x : Statement) :
    Option WriteTask :=
  (task.advance selects x.applyDelta x.db x.failed).map fun next => { task with stage := next.1 }

theorem sameStage_mergeDelta {applyDelta applyDelta' : List UInt8 → List UInt8 → Except String
    (List UInt8)} (existing : Option (List UInt8)) (patch : List UInt8)
    (h : (applyDelta' (existing.getD []) patch).toOption =
      (applyDelta (existing.getD []) patch).toOption) :
    SameStage (mergeDelta applyDelta existing patch) (mergeDelta applyDelta' existing patch) := by
  unfold mergeDelta
  generalize applyDelta (existing.getD []) patch = merged at h
  generalize applyDelta' (existing.getD []) patch = merged' at h
  cases merged with
  | error e =>
    cases merged' with
    | error e' => exact .finished (.refused trivial)
    | ok bytes' => cases h
  | ok bytes =>
    cases merged' with
    | error e' => cases h
    | ok bytes' =>
      cases h
      exact .same _

theorem sameStage_checkScope (selects : Db → String → String → Bool) (task : WriteTask) (db : Db)
    {failed failed' : Option String} (h : failed'.isSome = failed.isSome) :
    SameStage (task.checkScope selects db failed) (task.checkScope selects db failed') := by
  unfold checkScope
  cases task.dataQuery with
  | none => exact .same _
  | some query =>
    cases failed with
    | none =>
      obtain rfl : failed' = none := by simpa using h
      exact .same _
    | some error =>
      obtain ⟨error', rfl⟩ := Option.isSome_iff_exists.mp h
      exact .finished (.failed trivial)

inductive SameHandling : WriteTask → WriteTask → Prop
  | mk (task : WriteTask) {stage stage' : WriteStage} (h : SameStage stage stage') :
    SameHandling { task with stage := stage } { task with stage := stage' }

theorem rel_handling (selects : Db → String → String → Bool) (task : WriteTask) {x y : Statement}
    (h : SameStatement x y) :
    Option.Rel SameHandling (task.handling selects x) (task.handling selects y) := by
  obtain ⟨db, failed, applyDelta⟩ := x
  obtain ⟨db', failed', applyDelta'⟩ := y
  obtain ⟨hdb, hfailed, hmerge⟩ := h
  simp only at hdb hfailed hmerge
  subst hdb
  simp only [handling, advance]
  cases hstage : task.stage with
  | received => exact .some (.mk task (sameStage_checkScope selects task _ hfailed))
  | selected existing patch =>
    exact .some (.mk task (sameStage_mergeDelta existing patch (hmerge _ patch)))
  | finished outcome => exact .none
  | authorized | merged =>
    cases failed with
    | none =>
      obtain rfl : failed' = none := by simpa using hfailed
      exact .some (.mk task (.same _))
    | some error =>
      obtain ⟨error', rfl⟩ := Option.isSome_iff_exists.mp hfailed
      exact .some (.mk task (.finished (.refused trivial)))

/-- Where the statements of `handle_write` meet the same data and fail at the same points, its
outcomes differ at most in error details. -/
theorem rel_run_handling (selects : Db → String → String → Bool) (task : WriteTask)
    {xs ys : List Statement}
    (h : Paired (handling selects) (fun _ => SameStatement) task xs ys) :
    Option.Rel SameHandling (run (handling selects) task xs) (run (handling selects) task ys) := by
  refine h.rel_run ?_ (.mk task (.same task.stage))
  intro s t x y hst hxy
  cases hst with
  | mk task hstage =>
    cases hstage with
    | same stage => exact rel_handling selects _ hxy
    | finished houtcome => exact .none

/-- Two handlings of a write that meet the same data and fail at the same points, with the outcomes
they come to. -/
inductive SameWrite (outcome outcome' : WriteOutcome) : Prop
  | mk {selects : Db → String → String → Bool} {task last last' : WriteTask}
    {xs ys : List Statement} (h : Paired (handling selects) (fun _ => SameStatement) task xs ys)
    (hlast : run (handling selects) task xs = some last)
    (hlast' : run (handling selects) task ys = some last')
    (hstage : last.stage = .finished outcome) (hstage' : last'.stage = .finished outcome') :
    SameWrite outcome outcome'

theorem SameWrite.sameOutcome {outcome outcome' : WriteOutcome} (h : SameWrite outcome outcome') :
    SameWriteOutcome outcome outcome' := by
  obtain ⟨hpaired, hlast, hlast', hstage, hstage'⟩ := h
  have hrel := rel_run_handling _ _ hpaired
  rw [hlast, hlast'] at hrel
  cases hrel with
  | some hsame =>
    cases hsame with
    | mk task hsame =>
      simp only at hstage hstage'
      cases hsame with
      | same stage =>
        cases hstage.symm.trans hstage'
        exact .refl outcome
      | finished houtcome =>
        cases hstage
        cases hstage'
        exact houtcome

end WriteTask

namespace Connection

/-- The labels differ at most in the details of errors; `assign` is compared on the claims that it
is called with. -/
inductive SameLabel (s : Connection) : ConnectionAction → ConnectionAction → Prop
  | same (a : ConnectionAction) : SameLabel s a a
  | incoming {msg msg' : Incoming} (nowMs : UInt64) {outcome outcome' : WriteOutcome}
    (hmsg : SameIncoming msg msg') (houtcome : SameWriteOutcome outcome outcome') :
    SameLabel s (.incoming msg nowMs outcome) (.incoming msg' nowMs outcome')
  | write (msg : Incoming) (nowMs : UInt64) {outcome outcome' : WriteOutcome}
    (h : WriteTask.SameWrite outcome outcome') :
    SameLabel s (.incoming msg nowMs outcome) (.incoming msg nowMs outcome')
  | validate {result result' : Except SyncError TokenClaims} (h : SameOutcome result result') :
    SameLabel s (.validate result) (.validate result')
  | assign {assigner assigner' : BucketAssigner} {clock clock' : Clock}
    {db db' : String → Database} (order : List BucketId)
    (h : ∀ claims resumeLsn, s.phase = .assigning claims resumeLsn →
      SameOutcome (assigner.assign clock db claims).1 (assigner'.assign clock' db' claims).1) :
    SameLabel s (.assign assigner clock db order) (.assign assigner' clock' db' order)
  | beginSnapshot {checksum checksum' : Except SyncError BucketChecksum}
    (h : SameOutcome checksum checksum') :
    SameLabel s (.beginSnapshot checksum) (.beginSnapshot checksum')
  | batch {rows rows' : Except SyncError (List Value)} (h : SameOutcome rows rows') :
    SameLabel s (.batch rows) (.batch rows')
  | scan {failed failed' : Option SyncError} (h : Option.Rel SyncError.SameVariant failed failed') :
    SameLabel s (.scan failed) (.scan failed')
  | sendFailed (error error' : String) : SameLabel s (.sendFailed error) (.sendFailed error')

/-- The states differ at most in the details of the error that ended the connection. -/
inductive SameView : Connection → Connection → Prop
  | same (s : Connection) : SameView s s
  | closed (s : Connection) {result result' : Except SyncError Unit}
    (h : SameOutcome result result') : SameView (s.close result) (s.close result')
  | reporting (s : Connection) {reason reason' : Option SyncError} (socketFailed : Bool)
    (h : Option.Rel SyncError.SameVariant reason reason') :
    SameView { s with phase := .reporting reason socketFailed }
      { s with phase := .reporting reason' socketFailed }

variable {s t : Connection}

theorem SameView.sent_eq (h : SameView s t) : s.sent = t.sent := by
  cases h <;> rfl

theorem sameView_fail (s : Connection) {e e' : SyncError} (h : e.SameVariant e') :
    SameView (s.fail e) (s.fail e') :=
  .reporting s false (.some h)

theorem sameView_report (s : Connection) {reason reason' : Option SyncError} (sent : Bool)
    (h : Option.Rel SyncError.SameVariant reason reason') :
    SameView (s.report reason sent) (s.report reason' sent) := by
  cases h with
  | none => exact .same _
  | some h =>
    simp only [report, reportFrame, reportResult, errorFrame_congr h]
    exact .closed _ (.error h)

theorem sameView_subscribe (s : Connection) {msg msg' : Incoming} (h : SameIncoming msg msg') :
    SameView (s.subscribe msg) (s.subscribe msg') := by
  cases h with
  | same msg => exact .same _
  | undecodable error error' => exact s.sameView_fail trivial
  | failed error error' => exact .reporting s true (.some trivial)

theorem sameView_answer (s : Connection) (nowMs : UInt64) {outcome outcome' : WriteOutcome}
    (h : SameWriteOutcome outcome outcome') (msg : ClientMessage) :
    SameView (s.answer nowMs outcome msg) (s.answer nowMs outcome' msg) := by
  cases msg with
  | ack | ping | subscribe => exact .same _
  | write entityType entityId op =>
    cases h with
    | applied => exact .same _
    | refused h =>
      simp only [answer, handleWrite, errorFrame_congr h]
      exact .same _
    | failed h => exact .closed s (.error h)

theorem sameView_receive (s : Connection) (session : Session) (nowMs : UInt64)
    {outcome outcome' : WriteOutcome} (houtcome : SameWriteOutcome outcome outcome')
    {msg msg' : Incoming} (hmsg : SameIncoming msg msg') :
    SameView (s.receive session nowMs outcome msg) (s.receive session nowMs outcome' msg') := by
  cases hmsg with
  | same msg =>
    cases msg with
    | ended | close | failed | other => exact .same _
    | binary decoded =>
      cases decoded with
      | error error => exact .same _
      | ok msg => exact sameView_answer _ nowMs houtcome msg
  | undecodable error error' => exact .same _
  | failed error error' => exact .closed s (.error trivial)

theorem rel_sameView_self (next : Option Connection) : Option.Rel SameView next next := by
  cases next with
  | none => exact .none
  | some t => exact .some (.same t)

theorem rel_step_incoming (nowMs : UInt64) {msg msg' : Incoming} (hmsg : SameIncoming msg msg')
    {outcome outcome' : WriteOutcome} (houtcome : SameWriteOutcome outcome outcome') :
    Option.Rel SameView (s.step (.incoming msg nowMs outcome))
      (s.step (.incoming msg' nowMs outcome')) := by
  simp only [step]
  split
  · exact .some (s.sameView_subscribe hmsg)
  · exact .some (s.sameView_receive _ nowMs houtcome hmsg)
  · exact .none

theorem rel_step_same {a b : ConnectionAction} (h : s.SameLabel a b) :
    Option.Rel SameView (s.step a) (s.step b) := by
  cases h with
  | same a => exact rel_sameView_self _
  | incoming nowMs hmsg houtcome => exact rel_step_incoming nowMs hmsg houtcome
  | write msg nowMs h => exact rel_step_incoming nowMs (.same msg) h.sameOutcome
  | validate h =>
    cases h with
    | ok claims => exact rel_sameView_self _
    | error h =>
      cases hphase : s.phase with
      | validating token resumeLsn =>
        simp only [step, hphase]
        exact .some (s.sameView_fail h)
      | _ =>
        simp only [step, hphase]
        exact .none
  | assign order h =>
    cases hphase : s.phase with
    | assigning claims resumeLsn =>
      have hresult := h claims resumeLsn hphase
      simp only [step, hphase]
      generalize (BucketAssigner.assign _ _ _ _).1 = result at hresult ⊢
      generalize (BucketAssigner.assign _ _ _ _).1 = result' at hresult ⊢
      cases hresult with
      | ok assignments => exact rel_sameView_self _
      | error h => exact .some (s.sameView_fail h)
    | _ =>
      simp only [step, hphase]
      exact .none
  | beginSnapshot h =>
    cases h with
    | ok checksum => exact rel_sameView_self _
    | error h =>
      cases hphase : s.phase with
      | snapshots session queue =>
        simp only [step, hphase]
        cases queue with
        | nil => exact .none
        | cons b queue => exact .some (.closed s (.error h))
      | _ =>
        simp only [step, hphase]
        exact .none
  | batch h =>
    cases h with
    | ok rows => exact rel_sameView_self _
    | error h =>
      cases hphase : s.phase with
      | streaming session b checksum offset queue =>
        simp only [step, hphase]
        exact .some (.closed s (.error h))
      | _ =>
        simp only [step, hphase]
        exact .none
  | scan h =>
    cases h with
    | none => exact rel_sameView_self _
    | some h =>
      cases hphase : s.phase with
      | serving session scanning =>
        simp only [step, hphase]
        cases scanning with
        | nil => exact .none
        | cons b scanning => exact .some (s.sameView_fail h)
      | _ =>
        simp only [step, hphase]
        exact .none
  | sendFailed error error' =>
    simp only [step]
    split
    · exact .some (.closed s (.error trivial))
    · exact .some (.closed s (.error trivial))
    · exact .some (.closed s (.error trivial))
    · exact .some (.reporting s true (.some trivial))
    · exact .none

theorem rel_step_closed {result result' : Except SyncError Unit}
    (hresult : SameOutcome result result') {a b : ConnectionAction}
    (h : (s.close result).SameLabel a b) :
    Option.Rel SameView ((s.close result).step a) ((s.close result').step b) := by
  cases h with
  | same a =>
    cases a with
    | append wall b op =>
      exact .some (.closed { s with log := s.log.append wall b op.lsn op } hresult)
    | compact cutoff => exact .some (.closed { s with log := s.log.compact cutoff } hresult)
    | _ => exact .none
  | _ => exact .none

theorem rel_step_reporting {reason reason' : Option SyncError} (socketFailed : Bool)
    (hreason : Option.Rel SyncError.SameVariant reason reason') {a b : ConnectionAction}
    (h : SameLabel { s with phase := .reporting reason socketFailed } a b) :
    Option.Rel SameView (step { s with phase := .reporting reason socketFailed } a)
      (step { s with phase := .reporting reason' socketFailed } b) := by
  cases h with
  | same a =>
    cases a with
    | append wall b op =>
      exact .some (.reporting { s with log := s.log.append wall b op.lsn op } socketFailed hreason)
    | compact cutoff =>
      exact .some (.reporting { s with log := s.log.compact cutoff } socketFailed hreason)
    | report sent =>
      cases sent <;> exact .some (sameView_report _ _ hreason)
    | _ => exact .none
  | _ => exact .none

/-- Error detail never reaches the wire: two runs with the same frames, timers, data and outcomes,
up to the details of the errors, send the same frames. -/
theorem sent_eq_of_sameLabels (log : Partitions) {as bs : List ConnectionAction}
    (h : Paired step SameLabel (start log) as bs) :
    (run step (start log) as).map sent = (run step (start log) bs).map sent := by
  have hrel := h.rel_run (R := SameView) ?_ (.same _)
  · generalize run step (start log) as = s at hrel
    generalize run step (start log) bs = t at hrel
    cases hrel with
    | some hview => exact congrArg some hview.sent_eq
    | none => rfl
  · intro s t a b hview hlabel
    cases hview with
    | same => exact rel_step_same hlabel
    | closed s hresult => exact rel_step_closed hresult hlabel
    | reporting s socketFailed hreason => exact rel_step_reporting socketFailed hreason hlabel

/-- Two rejected tokens, with different reasons. -/
theorem sent_eq_after_rejection :
    let rejected (reason : String) : List ConnectionAction :=
      [.incoming (.binary (.ok (.subscribe ["user_entities"] "token" none 1))) 0 .applied,
        .validate (.error (.authError reason)), .report true]
    (run step (start Partitions.empty) (rejected "ExpiredSignature")).map sent =
        some [.error 4001 "authentication failed"] ∧
      (run step (start Partitions.empty) (rejected "ExpiredSignature")).map sent =
        (run step (start Partitions.empty) (rejected "kid not in JWKS")).map sent := by
  refine ⟨rfl, ?_⟩
  apply sent_eq_of_sameLabels
  exact ⟨.same _, fun _ _ => ⟨.validate (.error trivial), fun _ _ =>
    ⟨.same _, fun _ _ => trivial⟩⟩⟩

end Connection

end Gateway

end EntitySync
