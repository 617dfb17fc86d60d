import EntitySync.Client.LocalDb
import EntitySync.Library.StepSystem

/-!
# The change feed of the transport

Each listener that `subscribe` registers has its own handler for the client's Deltas. A handler
calls `handleOps`, which is not awaited: it applies the ops in one transaction and then notifies the
listener op by op, reading back from the database the rows that it reports. The steps of all pending
calls may interleave. `view` is what a listener makes of its events, beginning with the rows that
the table had when it subscribed.
-/

namespace EntitySync.Client

open StepSystem

inductive ChangeEvent where
  | update (id : String) (row : LocalRow)
  | delete (id : String)

/-- Where a call of `handleOps` is. -/
inductive Job where
  | applying (ops : List BucketOp)
  /-- The ops that the listener has not been notified of. -/
  | notifying (ops : List BucketOp)
  /-- `notifyOne` has read this, and goes on to its call of `onChange`. -/
  | reading (id : String) (row : Option LocalRow) (rest : List BucketOp)
deriving DecidableEq

structure Listener where
  registered : Bool
  view : String → Option LocalRow
  jobs : List Job

def Listener.onChange (l : Listener) : ChangeEvent → Listener
  | .update id row => { l with view := Function.update l.view id (some row) }
  | .delete id => { l with view := Function.update l.view id none }

inductive JobAction where
  /-- The transaction of `applyOps` ends. -/
  | settle (failed : Bool)
  /-- The query of `notifyOne` ends. -/
  | read (failed : Bool)
  /-- `notifyOne` returns, after its call of `onChange` if there is one. -/
  | notify
  /-- `handleOps` returns. -/
  | complete

/-- One step of `handleOps`: the database, the listener and what is left of the call. A failed
transaction ends the call, a failed query leaves out one event. -/
def handleOps (db : LocalDb) (table : String) (l : Listener) :
    Job → JobAction → Option (LocalDb × Listener × Option Job)
  | .applying ops, .settle failed =>
    match failed, applyOps db ops with
    | false, .ok db' => some (db', l, some (.notifying ops))
    | _, _ => some (db, l, none)
  | .notifying (op :: rest), .read failed =>
    if op.op = .delete then none
    else if failed then some (db, l, some (.notifying rest))
    else some (db, l, some (.reading op.entityId (rowAt db table op.entityId) rest))
  | .notifying (op :: rest), .notify =>
    if op.op = .delete then
      some (db, l.onChange (.delete op.entityId), some (.notifying rest))
    else none
  | .reading id row rest, .notify =>
    match row with
    | some row => some (db, l.onChange (.update id row), some (.notifying rest))
    | none => some (db, l, some (.notifying rest))
  | .notifying [], .complete => some (db, l, none)
  | _, _ => none

structure ChangeFeed where
  bucket : String
  table : String
  db : LocalDb
  listeners : List Listener

inductive FeedAction where
  | subscribe
  | unsubscribe (i : Nat)
  | delta (b : BucketId) (ops : List BucketOp)
  /-- Job `j` of listener `i` makes a step. -/
  | job (i j : Nat) (a : JobAction)

namespace ChangeFeed

def start (bucket table : String) (db : LocalDb) : ChangeFeed := ⟨bucket, table, db, []⟩

def relevant (s : ChangeFeed) (b : BucketId) (ops : List BucketOp) : List BucketOp :=
  if b.val ≠ s.bucket then [] else ops.filter fun op => op.entityType = s.table

def onDelta (ops : List BucketOp) (l : Listener) : Listener :=
  if l.registered = true ∧ ops ≠ [] then { l with jobs := l.jobs ++ [.applying ops] } else l

def replaceJob (jobs : List Job) (j : Nat) : Option Job → List Job
  | some job => jobs.set j job
  | none => jobs.eraseIdx j

def step (s : ChangeFeed) : FeedAction → Option ChangeFeed
  | .subscribe =>
    some { s with listeners := s.listeners ++ [⟨true, rowAt s.db s.table, []⟩] }
  | .unsubscribe i =>
    s.listeners[i]?.map fun l =>
      { s with listeners := s.listeners.set i { l with registered := false } }
  | .delta b ops => some { s with listeners := s.listeners.map (onDelta (s.relevant b ops)) }
  | .job i j a => do
    let l ← s.listeners[i]?
    let job ← l.jobs[j]?
    let (db, l', job') ← handleOps s.db s.table l job a
    return { s with
      db := db
      listeners := s.listeners.set i { l' with jobs := replaceJob l.jobs j job' } }

def Idle (s : ChangeFeed) : Prop := ∀ l ∈ s.listeners, l.jobs = []

def UpToDate (s : ChangeFeed) : Prop :=
  ∀ l ∈ s.listeners, l.registered = true → ∀ id, l.view id = rowAt s.db s.table id

/-- A Delta arrives, and a listener subscribes, while no call is pending; and neither a transaction
nor a query fails. -/
def OneAtATime (s : ChangeFeed) : FeedAction → Prop
  | .subscribe | .delta _ _ => s.Idle
  | .job _ _ (.settle failed) | .job _ _ (.read failed) => failed = false
  | .unsubscribe _ | .job _ _ .notify | .job _ _ .complete => True

instance (s : ChangeFeed) : Decidable s.Idle := List.decidableBAll _ s.listeners

instance (s : ChangeFeed) (a : FeedAction) : Decidable (s.OneAtATime a) :=
  match a with
  | .subscribe | .delta _ _ => inferInstanceAs (Decidable s.Idle)
  | .job _ _ (.settle _) | .job _ _ (.read _) => inferInstanceAs (Decidable (_ = false))
  | .unsubscribe _ | .job _ _ .notify | .job _ _ .complete => isTrue trivial

end ChangeFeed

/-! Rows that a batch has written. -/

def Untouched (ops : List BucketOp) (id : String) : Prop := ∀ op ∈ ops, op.entityId ≠ id

/-- The batch is in the database: applying it again makes no difference. -/
def Applied (db : LocalDb) (ops : List BucketOp) : Prop := applyOps db ops = .ok db

theorem applied_of_applyOps {db db' : LocalDb} {ops : List BucketOp}
    (h : applyOps db ops = .ok db') : Applied db' ops := by
  have hagain : applyOps db ([] ++ ops) = .ok db' := h
  exact applyOps_append_suffix hagain

theorem writesAt_of_untouched {ops : List BucketOp} {id : String} (h : Untouched ops id)
    (table : String) : writesAt ops table id = [] := by
  simp only [writesAt, List.map_eq_nil_iff, List.filter_eq_nil_iff, decide_eq_true_eq]
  exact fun op hop hboth => h op hop hboth.2

theorem rowAt_of_untouched {db db' : LocalDb} {ops : List BucketOp} (h : applyOps db ops = .ok db')
    {id : String} (hid : Untouched ops id) (table : String) :
    rowAt db' table id = rowAt db table id := by
  rw [rowAt_applyOps h, writesAt_of_untouched hid]
  rfl

theorem rowAt_of_last {db : LocalDb} {ops rest : List BucketOp} {op : BucketOp} {table : String}
    (happlied : Applied db ops) (htable : ∀ op ∈ ops, op.entityType = table)
    (hsuffix : op :: rest <:+ ops) (hlast : Untouched rest op.entityId) :
    ∃ row, rowAt db table op.entityId = writeRow op.op row := by
  obtain ⟨before, rfl⟩ := hsuffix
  have hop : op.entityType = table := htable op (by simp)
  have hwrites : writesAt (before ++ op :: rest) table op.entityId =
      writesAt before table op.entityId ++ op.op :: writesAt rest table op.entityId := by
    simp [writesAt, hop]
  have hrow := rowAt_applyOps happlied table op.entityId
  rw [hwrites, writesAt_of_untouched hlast, Replay.perform_append] at hrow
  exact ⟨_, hrow⟩

namespace ChangeFeed

/-- How far a listener is with the batch `ops`. Apart from the ids that it is still to hear of, it
knows the rows of the table. -/
inductive Following (db : LocalDb) (table : String) (ops : List BucketOp) : Listener → Prop
  | gone {view : String → Option LocalRow} : Following db table ops ⟨false, view, []⟩
  | done {registered : Bool} {view : String → Option LocalRow} (happlied : Applied db ops)
    (hview : ∀ id, view id = rowAt db table id) : Following db table ops ⟨registered, view, []⟩
  | applying {registered : Bool} {view : String → Option LocalRow}
    (hview : ∀ id, Untouched ops id → view id = rowAt db table id) :
    Following db table ops ⟨registered, view, [.applying ops]⟩
  | notifying {registered : Bool} {view : String → Option LocalRow} {rest : List BucketOp}
    (happlied : Applied db ops) (hsuffix : rest <:+ ops)
    (hview : ∀ id, Untouched rest id → view id = rowAt db table id) :
    Following db table ops ⟨registered, view, [.notifying rest]⟩
  | reading {registered : Bool} {view : String → Option LocalRow} {op : BucketOp}
    {rest : List BucketOp} (happlied : Applied db ops) (hsuffix : op :: rest <:+ ops)
    (hop : op.op ≠ .delete)
    (hview : ∀ id, Untouched (op :: rest) id → view id = rowAt db table id) :
    Following db table ops
      ⟨registered, view, [.reading op.entityId (rowAt db table op.entityId) rest]⟩

structure InStep (s : ChangeFeed) : Prop where
  name : isIdentifier s.table = true
  exists_table : (s.db s.table).isSome
  batch : ∃ ops, (∀ op ∈ ops, op.entityType = s.table) ∧
    ∀ l ∈ s.listeners, Following s.db s.table ops l

variable {db db' : LocalDb} {table : String} {ops : List BucketOp} {l l' : Listener}

theorem applyOps_eq_of_applied (h : Applied db ops) (hdb : applyOps db ops = .ok db') :
    db' = db := by
  cases h.symm.trans hdb
  rfl

theorem Following.commit (h : Following db table ops l) (hdb : applyOps db ops = .ok db') :
    Following db' table ops l := by
  cases h with
  | gone => exact .gone
  | done happlied hview =>
    obtain rfl := applyOps_eq_of_applied happlied hdb
    exact .done happlied hview
  | applying hview =>
    refine .applying fun id hid => ?_
    rw [hview id hid, rowAt_of_untouched hdb hid]
  | notifying happlied hsuffix hview =>
    obtain rfl := applyOps_eq_of_applied happlied hdb
    exact .notifying happlied hsuffix hview
  | reading happlied hsuffix hop hview =>
    obtain rfl := applyOps_eq_of_applied happlied hdb
    exact .reading happlied hsuffix hop hview

theorem Following.unregister (h : Following db table ops l) :
    Following db table ops { l with registered := false } := by
  cases h with
  | gone => exact .gone
  | done => exact .gone
  | applying hview => exact .applying hview
  | notifying happlied hsuffix hview => exact .notifying happlied hsuffix hview
  | reading happlied hsuffix hop hview => exact .reading happlied hsuffix hop hview

theorem view_update {view : String → Option LocalRow} {op : BucketOp} {rest : List BucketOp}
    {row : Option LocalRow}
    (hview : ∀ id, Untouched (op :: rest) id → view id = rowAt db table id)
    (hrow : Untouched rest op.entityId → rowAt db table op.entityId = row) (id : String)
    (hid : Untouched rest id) :
    Function.update view op.entityId row id = rowAt db table id := by
  by_cases hsame : id = op.entityId
  · subst hsame
    rw [Function.update_self, hrow hid]
  · rw [Function.update_of_ne hsame]
    exact hview id (List.forall_mem_cons.mpr ⟨Ne.symm hsame, hid⟩)

theorem suffix_of_cons {op : BucketOp} {rest : List BucketOp} (h : op :: rest <:+ ops) :
    rest <:+ ops := (List.suffix_cons op rest).trans h

theorem Following.step {job : Job} {j : Nat} {a : JobAction} {job' : Option Job}
    (h : Following db table ops l) (hops : ∀ op ∈ ops, op.entityType = table)
    (happlicable : Applicable db ops) (hjob : l.jobs[j]? = some job)
    (hreliable : ∀ failed, a = .settle failed ∨ a = .read failed → failed = false)
    (hstep : handleOps db table l job a = some (db', l', job')) :
    (db' = db ∨ applyOps db ops = .ok db') ∧
      Following db' table ops { l' with jobs := replaceJob l.jobs j job' } := by
  have hsingle {x : Job} (hx : [x][j]? = some job) : j = 0 ∧ job = x := by
    cases j with
    | zero => exact ⟨rfl, (Option.some.inj hx).symm⟩
    | succ j => cases hx
  cases h with
  | gone | done => cases hjob
  | applying hview =>
    obtain ⟨rfl, rfl⟩ := hsingle hjob
    cases a with
    | settle failed =>
      obtain rfl := hreliable failed (.inl rfl)
      obtain ⟨committed, hcommitted⟩ := applyOps_isOk_iff.mpr happlicable
      simp only [handleOps, hcommitted] at hstep
      cases hstep
      refine ⟨.inr hcommitted, .notifying (applied_of_applyOps hcommitted) (List.suffix_refl _) ?_⟩
      intro id hid
      exact (hview id hid).trans (rowAt_of_untouched hcommitted hid table).symm
    | read | notify | complete => cases hstep
  | @notifying registered view rest happlied hsuffix hview =>
    obtain ⟨rfl, rfl⟩ := hsingle hjob
    cases rest with
    | nil =>
      cases a with
      | complete =>
        cases hstep
        exact ⟨.inl rfl, .done happlied fun id => hview id (by simp [Untouched])⟩
      | settle | read | notify => cases hstep
    | cons op rest =>
      cases a with
      | read failed =>
        obtain rfl := hreliable failed (.inr rfl)
        simp only [handleOps] at hstep
        split at hstep
        · cases hstep
        next hop =>
          cases hstep
          exact ⟨.inl rfl, .reading happlied hsuffix hop hview⟩
      | notify =>
        simp only [handleOps] at hstep
        split at hstep
        next hop =>
          cases hstep
          refine ⟨.inl rfl, .notifying happlied (suffix_of_cons hsuffix) ?_⟩
          apply view_update hview
          intro hlast
          obtain ⟨row, hrow⟩ := rowAt_of_last happlied hops hsuffix hlast
          rw [hrow, hop]
          rfl
        · cases hstep
      | settle | complete => cases hstep
  | @reading registered view op rest happlied hsuffix hop hview =>
    obtain ⟨rfl, rfl⟩ := hsingle hjob
    cases a with
    | notify =>
      cases hread : rowAt db table op.entityId with
      | some row =>
        simp only [handleOps, hread] at hstep
        cases hstep
        refine ⟨.inl rfl, .notifying happlied (suffix_of_cons hsuffix) ?_⟩
        exact view_update hview fun _ => hread
      | none =>
        simp only [handleOps, hread] at hstep
        cases hstep
        refine ⟨.inl rfl, .notifying happlied (suffix_of_cons hsuffix) ?_⟩
        intro id hid
        -- an op that is not a delete leaves a row, so the id is named again further on
        have hsame : id ≠ op.entityId := by
          rintro rfl
          obtain ⟨row, hrow⟩ := rowAt_of_last happlied hops hsuffix hid
          rw [hread] at hrow
          cases hkind : op.op with
          | delete => exact hop hkind
          | upsert | crdtPatch =>
            rw [hkind] at hrow
            cases hrow
        exact hview id (List.forall_mem_cons.mpr ⟨Ne.symm hsame, hid⟩)
    | settle | read | complete => cases hstep

variable {s t : ChangeFeed}

theorem step_job_eq_some {i j : Nat} {a : JobAction} : s.step (.job i j a) = some t ↔
    ∃ l job db l' job', s.listeners[i]? = some l ∧ l.jobs[j]? = some job ∧
      handleOps s.db s.table l job a = some (db, l', job') ∧
      t = { s with
        db := db
        listeners := s.listeners.set i { l' with jobs := replaceJob l.jobs j job' } } := by
  simp only [step, bind, Option.bind_eq_some_iff, pure, Option.some.injEq, Prod.exists]
  constructor
  · rintro ⟨l, hl, job, hjob, db, l', job', hhandle, rfl⟩
    exact ⟨l, job, db, l', job', hl, hjob, hhandle, rfl⟩
  · rintro ⟨l, job, db, l', job', hl, hjob, hhandle, rfl⟩
    exact ⟨l, hl, job, hjob, db, l', job', hhandle, rfl⟩

theorem Following.idle (h : Following db table ops l) (hidle : l.jobs = []) :
    l.registered = true → ∀ id, l.view id = rowAt db table id := by
  cases h with
  | gone =>
    intro hregistered
    cases hregistered
  | done _ hview => exact fun _ => hview
  | applying | notifying | reading => cases hidle

theorem upToDate_of_idle (h : s.InStep) (hidle : s.Idle) : s.UpToDate := by
  obtain ⟨ops, -, hfollowing⟩ := h.batch
  intro l hl
  exact (hfollowing l hl).idle (hidle l hl)

theorem following_onDelta (hidle : l.jobs = [])
    (hview : l.registered = true → ∀ id, l.view id = rowAt db table id) (hops : ops ≠ []) :
    Following db table ops (onDelta ops l) := by
  obtain ⟨registered, view, jobs⟩ := l
  cases hidle
  cases registered with
  | false => exact .gone
  | true =>
    rw [onDelta, if_pos ⟨rfl, hops⟩]
    exact .applying fun id _ => hview rfl id

theorem following_nil (hidle : l.jobs = [])
    (hview : l.registered = true → ∀ id, l.view id = rowAt db table id) :
    Following db table [] l := by
  obtain ⟨registered, view, jobs⟩ := l
  cases hidle
  cases registered with
  | false => exact .gone
  | true => exact .done rfl (hview rfl)

theorem inStep_of_step {a : FeedAction} (h : s.InStep) (hone : s.OneAtATime a)
    (hstep : s.step a = some t) : t.InStep := by
  have hname := h.name
  have hexists := h.exists_table
  obtain ⟨ops, hops, hfollowing⟩ := h.batch
  cases a with
  | subscribe =>
    cases hstep
    have hview := upToDate_of_idle h hone
    refine ⟨hname, hexists, [], by simp, ?_⟩
    intro l hl
    cases List.mem_append.mp hl with
    | inl hold => exact following_nil (hone l hold) (hview l hold)
    | inr hnew =>
      obtain rfl := List.mem_singleton.mp hnew
      exact .done rfl fun _ => rfl
  | unsubscribe i =>
    obtain ⟨l, hl, rfl⟩ := Option.map_eq_some_iff.mp hstep
    refine ⟨hname, hexists, ops, hops, fun l' hl' => ?_⟩
    cases List.mem_or_eq_of_mem_set hl' with
    | inl hold => exact hfollowing l' hold
    | inr hnew =>
      rw [hnew]
      exact (hfollowing l (List.mem_of_getElem? hl)).unregister
  | delta b batch =>
    cases hstep
    have hview := upToDate_of_idle h hone
    by_cases hempty : s.relevant b batch = []
    · have hsame : onDelta (s.relevant b batch) = id := by
        funext l
        simp [onDelta, hempty]
      rw [hsame, List.map_id]
      exact h
    · refine ⟨hname, hexists, s.relevant b batch, ?_, ?_⟩
      · intro op hop
        rw [relevant] at hop
        split at hop
        · cases hop
        · exact of_decide_eq_true (List.mem_filter.mp hop).2
      · intro l hl
        obtain ⟨old, hold, rfl⟩ := List.mem_map.mp hl
        exact following_onDelta (hone old hold) (hview old hold) hempty
  | job i j a =>
    obtain ⟨l, job, db, l', job', hl, hjob, hhandle, rfl⟩ := step_job_eq_some.mp hstep
    have happlicable : Applicable s.db ops := by
      intro op hop
      rw [hops op hop]
      exact ⟨hname, hexists⟩
    have hreliable : ∀ failed, a = .settle failed ∨ a = .read failed → failed = false := by
      rintro failed (rfl | rfl) <;> exact hone
    obtain ⟨hdb, hnext⟩ := (hfollowing l (List.mem_of_getElem? hl)).step hops happlicable hjob
      hreliable hhandle
    have hothers : ∀ other ∈ s.listeners, Following db s.table ops other := by
      intro other hother
      cases hdb with
      | inl hsame =>
        rw [hsame]
        exact hfollowing other hother
      | inr hcommit => exact (hfollowing other hother).commit hcommit
    refine ⟨hname, ?_, ops, hops, fun other hother => ?_⟩
    · cases hdb with
      | inl hsame =>
        rw [hsame]
        exact hexists
      | inr hcommit =>
        rw [isSome_of_applyOps hcommit]
        exact hexists
    · cases List.mem_or_eq_of_mem_set hother with
      | inl hold => exact hothers other hold
      | inr hnew =>
        rw [hnew]
        exact hnext

/-- If each Delta is handled before the next one arrives, every listener knows the rows of the table
whenever no call is pending, however the steps of the calls for one Delta interleave. -/
theorem up_to_date_of_one_at_a_time {bucket : String} (hname : isIdentifier table = true)
    (htable : (db table).isSome) {actions : List FeedAction}
    (hone : Meets step OneAtATime (start bucket table db) actions)
    (hrun : run step (start bucket table db) actions = some s) (hidle : s.Idle) : s.UpToDate := by
  have hstart : (start bucket table db).InStep :=
    ⟨hname, htable, [], by simp, fun l hl => by cases hl⟩
  have hinstep : s.InStep := hone.invariant (fun _ _ _ => inStep_of_step) hstart hrun
  exact upToDate_of_idle hinstep hidle

private def todosDb : LocalDb := fun table => if table = "todos" then some fun _ => none else none

private def todo (id : String) (op : Op) : BucketOp := ⟨1, ⟨"b"⟩, "todos", id, op⟩

/-- Two listeners and a Delta that writes one row and deletes another. The second call commits the
batch again while the first one notifies. -/
private def twoListeners : List FeedAction :=
  [.subscribe, .subscribe, .delta ⟨"b"⟩ [todo "1" (.upsert .null), todo "2" .delete],
    .job 0 0 (.settle false), .job 0 0 (.read false), .job 1 0 (.settle false), .job 0 0 .notify,
    .job 0 0 .notify, .job 0 0 .complete, .job 1 0 (.read false), .job 1 0 .notify,
    .job 1 0 .notify, .job 1 0 .complete]

theorem up_to_date_two_listeners : ∃ s,
    run step (start "b" "todos" todosDb) twoListeners = some s ∧ s.Idle ∧ s.UpToDate := by
  have hends : (run step (start "b" "todos" todosDb) twoListeners).any (·.Idle) = true := by
    decide +kernel
  obtain ⟨s, hrun, hidle⟩ := (Option.any_eq_true _ _).mp hends
  have hidle : s.Idle := of_decide_eq_true hidle
  exact ⟨s, hrun, hidle, up_to_date_of_one_at_a_time (by decide +kernel) (by decide)
    (by decide +kernel) hrun hidle⟩

/-- The first Delta writes one row and deletes a second one, the second Delta writes the second row.
Its call overtakes the one for the first Delta, which then reports the deletion. -/
private def overtaking : List FeedAction :=
  [.subscribe, .delta ⟨"b"⟩ [todo "1" (.upsert .null), todo "2" .delete],
    .job 0 0 (.settle false), .job 0 0 (.read false), .delta ⟨"b"⟩ [todo "2" (.upsert .null)],
    .job 0 1 (.settle false), .job 0 1 (.read false), .job 0 1 .notify, .job 0 1 .complete,
    .job 0 0 .notify, .job 0 0 .notify, .job 0 0 .complete]

theorem stale_after_overtaking : ∃ s,
    run step (start "b" "todos" todosDb) overtaking = some s ∧ s.Idle ∧ ¬s.UpToDate := by
  have hends : (run step (start "b" "todos" todosDb) overtaking).any (fun s => s.Idle ∧
      ∃ l ∈ s.listeners, l.registered = true ∧ l.view "2" ≠ rowAt s.db s.table "2") = true := by
    decide +kernel
  obtain ⟨s, hrun, hends⟩ := (Option.any_eq_true _ _).mp hends
  obtain ⟨hidle, l, hl, hregistered, hstale⟩ := of_decide_eq_true hends
  exact ⟨s, hrun, hidle, fun h => hstale (h l hl hregistered "2")⟩

end ChangeFeed

end EntitySync.Client
