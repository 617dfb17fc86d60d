import EntitySync.Router.Pipeline

/-!
# Fan-out of an event

`route_one_event` appends to each affected bucket in a task of its own and waits for all of them.
The tasks end in any order, between the steps of everything else; each reads the clock for itself,
and the op of an append that fails is lost. `Pipeline.step` makes all appends of an event in one
step. Reading one bucket tells no difference except for the ops that are lost or still to come, and
what a reader has once read of a bucket is never preceded by a later append.
-/

namespace EntitySync.Router

open Oplog (Partitions StoredOp)
open Rules (BucketAssigner Instant)
open StepSystem

def PipelineAction.received : PipelineAction → Nat
  | .receive => 1
  | .take _ | .send _ | .abandon _ | .enqueue | .route _ _ _ | .stop => 0

namespace Pipeline

/-- The events that have an offset and are still to be routed, in the order of their routing. -/
def backlog (p : Pipeline) : List EventEnvelope :=
  p.queue ++ p.holding.toList ++ p.channel ++ if p.closed then [] else p.waiting

def Passed (p : Pipeline) (l : PgLsn) : Prop :=
  l < p.nextOffset ∧ ∀ e ∈ p.backlog, l < e.offset

def withLog (p : Pipeline) (log : Partitions) (appended : List (List BucketOp)) : Pipeline :=
  { p with log := log, appended := appended }

variable {p q : Pipeline} {a : PipelineAction}

theorem step_withLog (h : ∀ assigner now wall, a ≠ .route assigner now wall) (log : Partitions)
    (appended : List (List BucketOp)) :
    (p.withLog log appended).step a = (p.step a).map fun q => q.withLog log appended := by
  cases a with
  | route assigner now wall => exact absurd rfl (h assigner now wall)
  | take _ | stop => rfl
  | abandon i =>
    simp only [step, withLog, apply_ite (Option.map _)]
    rfl
  | send i =>
    simp only [step, withLog]
    cases p.waiting[i]? with
    | none => rfl
    | some e =>
      simp only [apply_ite (Option.map _)]
      rfl
  | receive =>
    simp only [step, withLog]
    cases p.channel with
    | nil => rfl
    | cons e channel => cases p.holding <;> rfl
  | enqueue =>
    simp only [step, withLog]
    cases p.holding with
    | none => rfl
    | some e =>
      simp only [apply_ite (Option.map _)]
      rfl

theorem eq_withLog_of_step (h : ∀ assigner now wall, a ≠ .route assigner now wall)
    (hstep : p.step a = some q) : q = q.withLog p.log p.appended := by
  have hsame := step_withLog h p.log p.appended (p := p)
  rw [show p.withLog p.log p.appended = p from rfl, hstep] at hsame
  exact Option.some.inj hsame

theorem received_of_step (hstep : p.step a = some q) :
    q.received.length = p.received.length + a.received := by
  cases a with
  | take _ | stop =>
    cases hstep
    rfl
  | send i =>
    obtain ⟨_, _, _, _, rfl⟩ := step_send_eq_some.mp hstep
    rfl
  | abandon i =>
    simp only [step, Option.ite_none_right_eq_some, Option.some.injEq] at hstep
    obtain ⟨_, rfl⟩ := hstep
    rfl
  | receive =>
    obtain ⟨_, _, _, _, rfl⟩ := step_receive_eq_some.mp hstep
    simp [PipelineAction.received]
  | enqueue =>
    obtain ⟨_, _, _, rfl⟩ := step_enqueue_eq_some.mp hstep
    rfl
  | route assigner now wall =>
    obtain ⟨_, _, _, rfl⟩ := step_route_eq_some.mp hstep
    rfl

/-- Where no call is overtaken, the broker and the router keep the order of the backlog: a call
adds its offset at the end, and some events may be dropped. -/
theorem backlog_of_step (h : ∀ assigner now wall, a ≠ .route assigner now wall)
    (hturn : p.InTurn a) (hstep : p.step a = some q) :
    (∃ payload, a = .take payload ∧ q.nextOffset = p.nextOffset + 1 ∧
      q.backlog.Sublist (p.backlog ++ [⟨p.nextOffset, payload⟩])) ∨
    (q.nextOffset = p.nextOffset ∧ q.backlog.Sublist p.backlog) := by
  cases a with
  | route assigner now wall => exact absurd rfl (h assigner now wall)
  | take payload =>
    cases hstep
    refine Or.inl ⟨payload, rfl, rfl, ?_⟩
    cases hclosed : p.closed with
    | true => simp [backlog, hclosed]
    | false => simp [backlog, hclosed]
  | send i =>
    obtain ⟨e, he, hopen, _, rfl⟩ := step_send_eq_some.mp hstep
    cases (show i = 0 from hturn)
    right
    cases hwaiting : p.waiting with
    | nil => simp [hwaiting] at he
    | cons x xs =>
      cases (show x = e by simpa [hwaiting] using he)
      simp [backlog, hopen, hwaiting]
  | abandon i =>
    simp only [step, Option.ite_none_right_eq_some, Option.some.injEq] at hstep
    obtain ⟨_, rfl⟩ := hstep
    refine Or.inr ⟨rfl, List.Sublist.append_left ?_ _⟩
    cases hclosed : p.closed with
    | true => simp
    | false => simpa [hclosed] using List.eraseIdx_sublist p.waiting i
  | receive =>
    obtain ⟨e, channel, hchannel, hholding, rfl⟩ := step_receive_eq_some.mp hstep
    simp [backlog, hchannel, hholding]
  | enqueue =>
    obtain ⟨e, hholding, _, rfl⟩ := step_enqueue_eq_some.mp hstep
    simp [backlog, hholding]
  | stop =>
    cases hstep
    simp [backlog, List.append_assoc]

structure Rising (p : Pipeline) : Prop where
  sorted : p.backlog.Pairwise fun x y => x.offset < y.offset
  next : ∀ e ∈ p.backlog, e.offset < p.nextOffset

theorem rising_init : Rising init := by
  refine ⟨.nil, ?_⟩
  intro e he
  cases he

theorem Rising.step (hp : p.Rising) (h : ∀ assigner now wall, a ≠ .route assigner now wall)
    (hturn : p.InTurn a) (hmax : ∀ payload, a = .take payload → p.nextOffset < PgLsn.max)
    (hstep : p.step a = some q) : q.Rising ∧ ∀ l, p.Passed l → q.Passed l := by
  cases backlog_of_step h hturn hstep with
  | inl htake =>
    obtain ⟨payload, ha, hnext, hsub⟩ := htake
    have hsucc : p.nextOffset < q.nextOffset := by
      rw [hnext]
      exact (PgLsn.succ_le_iff (hmax payload ha)).mp (UInt64.le_refl _)
    have hmem (e : EventEnvelope) (he : e ∈ q.backlog) :
        e ∈ p.backlog ∨ e.offset = p.nextOffset := by
      cases List.mem_append.mp (hsub.subset he) with
      | inl hold => exact Or.inl hold
      | inr hnew =>
        rw [List.mem_singleton.mp hnew]
        exact Or.inr rfl
    refine ⟨⟨?_, ?_⟩, ?_⟩
    · refine List.Pairwise.sublist hsub (List.pairwise_append.mpr ⟨hp.sorted, by simp, ?_⟩)
      intro x hx y hy
      rw [List.mem_singleton.mp hy]
      exact hp.next x hx
    · intro e he
      cases hmem e he with
      | inl hold => exact UInt64.lt_trans (hp.next e hold) hsucc
      | inr hnew => rwa [hnew]
    · intro l hl
      refine ⟨UInt64.lt_trans hl.1 hsucc, fun e he => ?_⟩
      cases hmem e he with
      | inl hold => exact hl.2 e hold
      | inr hnew =>
        rw [hnew]
        exact hl.1
  | inr hother =>
    obtain ⟨hnext, hsub⟩ := hother
    refine ⟨⟨hp.sorted.sublist hsub, ?_⟩, ?_⟩
    · intro e he
      rw [hnext]
      exact hp.next e (hsub.subset he)
    · intro l hl
      refine ⟨?_, fun e he => hl.2 e (hsub.subset he)⟩
      rw [hnext]
      exact hl.1

/-- Routing the first event passes its offset, and what was passed before is below it. -/
theorem Rising.tail (hp : p.Rising) {e : EventEnvelope} {queue : List EventEnvelope}
    (hqueue : p.queue = e :: queue) :
    { p with queue := queue }.Rising ∧ { p with queue := queue }.Passed e.offset ∧
      ∀ l, p.Passed l → l < e.offset ∧ { p with queue := queue }.Passed l := by
  have hbacklog : p.backlog = e :: { p with queue := queue }.backlog := by
    simp only [backlog, hqueue, List.cons_append]
  have hsorted := hp.sorted
  have hnext := hp.next
  rw [hbacklog] at hsorted hnext
  obtain ⟨hfirst, hrest⟩ := List.pairwise_cons.mp hsorted
  refine ⟨⟨hrest, fun x hx => hnext x (List.mem_cons_of_mem _ hx)⟩,
    ⟨hnext e List.mem_cons_self, hfirst⟩, fun l hl => ?_⟩
  rw [Passed, hbacklog] at hl
  exact ⟨hl.2 e List.mem_cons_self, hl.1, fun x hx => hl.2 x (List.mem_cons_of_mem _ hx)⟩

end Pipeline

structure Routing where
  ops : List BucketOp
  /-- The ops whose append tasks have not ended. -/
  pending : List BucketOp
  /-- The buckets whose append tasks have succeeded. -/
  succeeded : List BucketId

structure FanOut where
  /-- The broker and the router; its log is the one that the append tasks write. -/
  pipeline : Pipeline
  routing : Option Routing
  /-- The ops whose appends have failed. -/
  lost : List BucketOp
  eventsReceived : Nat
  opsRouted : BucketId → Nat

inductive FanOutAction where
  /-- A step of the broker or the router other than routing. -/
  | transport (a : PipelineAction)
  /-- The writer task takes an event and spawns its append tasks. -/
  | spawn (assigner : BucketAssigner) (now : Instant)
  /-- The append task at position `i` of the pending ones ends. -/
  | append (i : Nat) (wall : UInt64) (failed : Bool)
  /-- All append tasks have ended and those that succeeded are counted. -/
  | join

namespace FanOut

def init : FanOut := ⟨.init, none, [], 0, fun _ => 0⟩

def step (s : FanOut) : FanOutAction → Option FanOut
  | .transport (.route _ _ _) => none
  | .transport a =>
    (s.pipeline.step a).map fun pipeline =>
      { s with pipeline := pipeline, eventsReceived := s.eventsReceived + a.received }
  | .spawn assigner now =>
    match s.routing, s.pipeline.queue with
    | none, envelope :: queue =>
      let ops := routedOps assigner now envelope
      some { s with
        pipeline := { s.pipeline with queue := queue }
        routing := some ⟨ops, ops, []⟩ }
    | _, _ => none
  | .append i wall failed =>
    match s.routing with
    | none => none
    | some r =>
      match r.pending[i]? with
      | none => none
      | some op =>
        if failed then
          some { s with
            routing := some { r with pending := r.pending.eraseIdx i }
            lost := s.lost ++ [op] }
        else
          some { s with
            pipeline := { s.pipeline with
              log := s.pipeline.log.append wall op.bucketId op.lsn op }
            routing := some { r with
              pending := r.pending.eraseIdx i
              succeeded := r.succeeded ++ [op.bucketId] } }
  | .join =>
    match s.routing with
    | some ⟨ops, [], succeeded⟩ =>
      some { s with
        pipeline := { s.pipeline with appended := s.pipeline.appended ++ [ops] }
        routing := none
        opsRouted := fun b => s.opsRouted b + succeeded.count b }
    | _ => none

def pending (s : FanOut) : List BucketOp := s.routing.elim [] Routing.pending

def succeeded (s : FanOut) : List BucketId := s.routing.elim [] Routing.succeeded

/-- The steps of the router that routes an event at once. -/
def coarse : FanOutAction → List PipelineAction
  | .transport a => [a]
  | .spawn assigner now => [.route assigner now 0]
  | .append _ _ _ | .join => []

/-- The offset counter does not wrap, and a call of `publish` sends when no earlier one is
waiting. -/
def InTurn (s : FanOut) : FanOutAction → Prop
  | .transport (.take _) => s.pipeline.nextOffset < PgLsn.max
  | .transport a => s.pipeline.InTurn a
  | .spawn _ _ | .append _ _ _ | .join => True

instance (s : FanOut) (a : FanOutAction) : Decidable (s.InTurn a) :=
  match a with
  | .transport (.take _) => inferInstanceAs (Decidable (_ < _))
  | .transport (.send _) => inferInstanceAs (Decidable (_ = 0))
  | .transport (.abandon _) | .transport .receive | .transport .enqueue | .transport .stop
  | .transport (.route _ _ _) | .spawn _ _ | .append _ _ _ | .join => isTrue trivial

/-- `p` is the state of the router that has routed at once every event taken from the queue. -/
structure Refines (s : FanOut) (p : Pipeline) : Prop where
  transport : p = s.pipeline.withLog p.log p.appended
  appended : p.appended = s.pipeline.appended ++ s.routing.toList.map Routing.ops
  settled : ∀ (b : BucketId) (l : PgLsn),
    (∀ op ∈ s.pending ++ s.lost, ¬(op.bucketId = b ∧ op.lsn = l)) →
      (s.pipeline.log b)[l]?.map StoredOp.op = (p.log b)[l]?.map StoredOp.op
  due : ∀ op ∈ s.pending, (p.log op.bucketId)[op.lsn]?.map StoredOp.op = some op
  received : s.eventsReceived = p.received.length
  routed : ∀ b, s.opsRouted b + s.succeeded.count b +
    ((s.pending ++ s.lost).map BucketOp.bucketId).count b =
      (p.appended.flatten.map BucketOp.bucketId).count b

variable {s t : FanOut}

theorem step_transport_eq_some {a : PipelineAction} : s.step (.transport a) = some t ↔
    (∀ assigner now wall, a ≠ .route assigner now wall) ∧ ∃ q, s.pipeline.step a = some q ∧
      t = { s with pipeline := q, eventsReceived := s.eventsReceived + a.received } := by
  cases a with
  | route assigner now wall => simp [step]
  | take _ | send _ | abandon _ | receive | enqueue | stop =>
    simp [step, Option.map_eq_some_iff, eq_comm (a := t)]

theorem step_spawn_eq_some {assigner : BucketAssigner} {now : Instant} :
    s.step (.spawn assigner now) = some t ↔ s.routing = none ∧
      ∃ e queue, s.pipeline.queue = e :: queue ∧
        t = { s with
          pipeline := { s.pipeline with queue := queue }
          routing := some ⟨routedOps assigner now e, routedOps assigner now e, []⟩ } := by
  cases hrouting : s.routing with
  | some r => simp [step, hrouting]
  | none =>
    cases hqueue : s.pipeline.queue with
    | nil => simp [step, hrouting, hqueue]
    | cons e queue => simp [step, hrouting, hqueue, eq_comm]

theorem step_append_eq_some {i : Nat} {wall : UInt64} {failed : Bool} :
    s.step (.append i wall failed) = some t ↔ ∃ r op, s.routing = some r ∧
      r.pending[i]? = some op ∧
      t = if failed then
          { s with
            routing := some { r with pending := r.pending.eraseIdx i }
            lost := s.lost ++ [op] }
        else
          { s with
            pipeline := { s.pipeline with
              log := s.pipeline.log.append wall op.bucketId op.lsn op }
            routing := some { r with
              pending := r.pending.eraseIdx i
              succeeded := r.succeeded ++ [op.bucketId] } } := by
  cases hrouting : s.routing with
  | none => simp [step, hrouting]
  | some r =>
    cases hop : r.pending[i]? with
    | none => simp [step, hrouting, hop]
    | some op =>
      cases failed with
      | true => simp [step, hrouting, hop, eq_comm]
      | false => simp [step, hrouting, hop, eq_comm]

theorem step_join_eq_some : s.step .join = some t ↔ ∃ ops succeeded,
    s.routing = some ⟨ops, [], succeeded⟩ ∧
      t = { s with
        pipeline := { s.pipeline with appended := s.pipeline.appended ++ [ops] }
        routing := none
        opsRouted := fun b => s.opsRouted b + succeeded.count b } := by
  cases hrouting : s.routing with
  | none => simp [step, hrouting]
  | some r =>
    obtain ⟨ops, pending, succeeded⟩ := r
    cases pending with
    | nil => simp [step, hrouting, eq_comm]
    | cons op rest => simp [step, hrouting]

theorem pending_of_routing {r : Routing} (h : s.routing = some r) : s.pending = r.pending := by
  rw [pending, h, Option.elim_some]

theorem succeeded_of_routing {r : Routing} (h : s.routing = some r) :
    s.succeeded = r.succeeded := by
  rw [succeeded, h, Option.elim_some]

theorem perm_ended {ops : List BucketOp} {i : Nat} {op : BucketOp} (h : ops[i]? = some op) :
    (op :: ops.eraseIdx i).Perm ops := by
  obtain ⟨hi, rfl⟩ := List.getElem?_eq_some_iff.mp h
  exact List.getElem_cons_eraseIdx_perm hi

theorem refines_init : init.Refines .init := by
  refine ⟨rfl, rfl, fun _ _ _ => rfl, ?_, rfl, fun _ => rfl⟩
  intro op hop
  cases hop

variable {p : Pipeline}

theorem Refines.transport_step (h : s.Refines p) {a : PipelineAction} {q : Pipeline}
    (ha : ∀ assigner now wall, a ≠ .route assigner now wall) (hq : s.pipeline.step a = some q) :
    p.step a = some (q.withLog p.log p.appended) ∧
      { s with pipeline := q, eventsReceived := s.eventsReceived + a.received }.Refines
        (q.withLog p.log p.appended) := by
  have hframe := Pipeline.eq_withLog_of_step ha hq
  refine ⟨?_, rfl, ?_, ?_, h.due, ?_, h.routed⟩
  · rw [h.transport, Pipeline.step_withLog ha, hq, Option.map_some]
    rfl
  · rw [hframe]
    exact h.appended
  · rw [hframe]
    exact h.settled
  · have hreceived := Pipeline.received_of_step hq
    have hsame : s.eventsReceived = s.pipeline.received.length := by
      rw [h.received, h.transport]
      rfl
    change s.eventsReceived + a.received = q.received.length
    rw [hsame, hreceived]

theorem Refines.spawn (h : s.Refines p) (hrouting : s.routing = none) {e : EventEnvelope}
    {queue : List EventEnvelope} (hqueue : s.pipeline.queue = e :: queue)
    (assigner : BucketAssigner) (now : Instant) :
    ∃ q, p.step (.route assigner now 0) = some q ∧
      { s with
        pipeline := { s.pipeline with queue := queue }
        routing := some ⟨routedOps assigner now e, routedOps assigner now e, []⟩ }.Refines q := by
  have hp : p.queue = e :: queue := by
    rw [h.transport]
    exact hqueue
  have hpending : s.pending = [] := by
    rw [pending, hrouting, Option.elim_none]
  refine ⟨_, Pipeline.step_route_eq_some.mpr ⟨e, queue, hp, rfl⟩, ?_, ?_, ?_, ?_, h.received, ?_⟩
  · rw [h.transport]
    rfl
  · have happended := h.appended
    rw [hrouting] at happended
    simpa using happended
  · intro b l hfree
    have hops : ∀ op ∈ routedOps assigner now e, op.bucketId = b → op.lsn ≠ l :=
      fun op hop hb hl => hfree op (List.mem_append_left _ hop) ⟨hb, hl⟩
    dsimp only
    rw [getElem?_appendAll_of_ne hops]
    refine h.settled b l fun op hop => hfree op ?_
    rw [hpending, List.nil_append] at hop
    exact List.mem_append_right _ hop
  · intro op hop
    have hmem : op ∈ routedOps assigner now e := hop
    dsimp only
    rw [getElem?_appendAll_of_routed hmem]
    rfl
  · intro b
    have hrouted := h.routed b
    simp only [hpending, succeeded, hrouting, Option.elim_none, List.nil_append, List.count_nil]
      at hrouted
    simp only [pending, succeeded, Option.elim_some, List.flatten_append, List.flatten_singleton,
      List.map_append, List.count_append, List.count_nil, ← hrouted]
    omega

theorem mem_pending_of_eraseIdx {r : Routing} (hr : s.routing = some r) {i : Nat} {op x : BucketOp}
    (hop : r.pending[i]? = some op) (hx : x ∈ r.pending.eraseIdx i) : x ∈ s.pending := by
  rw [pending_of_routing hr]
  exact (perm_ended hop).mem_iff.mp (List.mem_cons_of_mem _ hx)

theorem Refines.append_failed (h : s.Refines p) {r : Routing} (hr : s.routing = some r) {i : Nat}
    {op : BucketOp} (hop : r.pending[i]? = some op) :
    { s with
      routing := some { r with pending := r.pending.eraseIdx i }
      lost := s.lost ++ [op] }.Refines p := by
  have hmoved : (r.pending.eraseIdx i ++ (s.lost ++ [op])).Perm (s.pending ++ s.lost) := by
    rw [pending_of_routing hr]
    refine List.Perm.trans ?_ ((perm_ended hop).append_right s.lost)
    rw [← List.append_assoc]
    exact List.perm_append_singleton op _
  refine ⟨h.transport, ?_, ?_, ?_, h.received, ?_⟩
  · rw [h.appended, hr]
    rfl
  · intro b l hfree
    exact h.settled b l fun x hx => hfree x (hmoved.mem_iff.mpr hx)
  · intro x hx
    exact h.due x (mem_pending_of_eraseIdx hr hop hx)
  · intro b
    have hrouted := h.routed b
    rw [← (hmoved.map BucketOp.bucketId).count_eq, succeeded_of_routing hr] at hrouted
    exact hrouted

theorem Refines.append (h : s.Refines p) {r : Routing} (hr : s.routing = some r) {i : Nat}
    {op : BucketOp} (hop : r.pending[i]? = some op) (wall : UInt64) :
    { s with
      pipeline := { s.pipeline with
        log := s.pipeline.log.append wall op.bucketId op.lsn op }
      routing := some { r with
        pending := r.pending.eraseIdx i
        succeeded := r.succeeded ++ [op.bucketId] } }.Refines p := by
  have hended := perm_ended hop
  have hpending := pending_of_routing hr
  refine ⟨h.transport, ?_, ?_, ?_, h.received, ?_⟩
  · rw [h.appended, hr]
    rfl
  · intro b l hfree
    change Option.map _ ((s.pipeline.log.append wall op.bucketId op.lsn op b)[l]?) = _
    rw [Partitions.getElem?_append]
    split
    next heq =>
      have hdue : op ∈ s.pending := by
        rw [hpending]
        exact hended.mem_iff.mp List.mem_cons_self
      rw [heq.1, heq.2, h.due op hdue]
      rfl
    next hne =>
      refine h.settled b l fun x hx => ?_
      rw [hpending, List.mem_append, ← hended.mem_iff, List.mem_cons] at hx
      rcases hx with (rfl | hstays) | hlost
      · exact fun heq => hne ⟨heq.1.symm, heq.2.symm⟩
      · exact hfree x (List.mem_append_left _ hstays)
      · exact hfree x (List.mem_append_right _ hlost)
  · intro x hx
    exact h.due x (mem_pending_of_eraseIdx hr hop hx)
  · intro b
    have hrouted := h.routed b
    have hcount := (hended.map BucketOp.bucketId).count_eq b
    rw [hpending, succeeded_of_routing hr, List.map_append, List.count_append, ← hcount,
      List.map_cons, List.count_cons] at hrouted
    rw [← hrouted, List.map_append, List.count_append]
    simp only [pending, succeeded, Option.elim_some, List.count_append, List.count_singleton]
    omega

theorem Refines.join (h : s.Refines p) {ops : List BucketOp} {succeeded : List BucketId}
    (hr : s.routing = some ⟨ops, [], succeeded⟩) :
    { s with
      pipeline := { s.pipeline with appended := s.pipeline.appended ++ [ops] }
      routing := none
      opsRouted := fun b => s.opsRouted b + succeeded.count b }.Refines p := by
  have hpending := pending_of_routing hr
  refine ⟨h.transport, ?_, ?_, ?_, h.received, ?_⟩
  · rw [h.appended, hr]
    simp
  · intro b l hfree
    refine h.settled b l fun x hx => hfree x ?_
    rwa [hpending] at hx
  · intro op hop
    cases hop
  · intro b
    have hrouted := h.routed b
    rw [hpending, succeeded_of_routing hr] at hrouted
    exact hrouted

theorem Refines.step {a : FanOutAction} (h : s.Refines p) (hstep : s.step a = some t) :
    ∃ q, run Pipeline.step p (coarse a) = some q ∧ t.Refines q := by
  cases a with
  | transport a =>
    obtain ⟨ha, q, hq, rfl⟩ := step_transport_eq_some.mp hstep
    obtain ⟨hp, hrefines⟩ := h.transport_step ha hq
    exact ⟨_, by rw [coarse, run_cons, hp]; rfl, hrefines⟩
  | spawn assigner now =>
    obtain ⟨hrouting, e, queue, hqueue, rfl⟩ := step_spawn_eq_some.mp hstep
    obtain ⟨q, hq, hrefines⟩ := h.spawn hrouting hqueue assigner now
    exact ⟨q, by rw [coarse, run_cons, hq]; rfl, hrefines⟩
  | append i wall failed =>
    obtain ⟨r, op, hr, hop, rfl⟩ := step_append_eq_some.mp hstep
    refine ⟨p, rfl, ?_⟩
    cases failed with
    | true => exact h.append_failed hr hop
    | false => exact h.append hr hop wall
  | join =>
    obtain ⟨ops, succeeded, hr, rfl⟩ := step_join_eq_some.mp hstep
    exact ⟨p, rfl, h.join hr⟩

/-- Every run has a run of the router that routes an event at once, with the same events in every
place. For a bucket with no op that is pending or lost, scans of the two logs yield the same ops.
The counters hold the events received, and per bucket the ops routed but for those that are still
to be counted, pending or lost. -/
theorem fan_out_refines_route {actions : List FanOutAction} {s : FanOut}
    (h : run step init actions = some s) :
    ∃ p, run Pipeline.step .init (actions.flatMap coarse) = some p ∧
      p = s.pipeline.withLog p.log p.appended ∧
      (∀ b, (∀ op ∈ s.pending ++ s.lost, op.bucketId ≠ b) →
        ∀ fromLsn, s.pipeline.log.drainSince b fromLsn = p.log.drainSince b fromLsn) ∧
      s.eventsReceived = p.received.length ∧
      ∀ b, s.opsRouted b + s.succeeded.count b +
        ((s.pending ++ s.lost).map BucketOp.bucketId).count b =
          (p.appended.flatten.map BucketOp.bucketId).count b := by
  have hall : Meets step (fun _ _ => True) init actions := meets_of_forall fun _ _ => trivial
  obtain ⟨p, hrun, hrefines⟩ :=
    hall.simulates (fun _ _ _ _ hR _ hstep => hR.step hstep) refines_init h
  refine ⟨p, hrun, hrefines.transport, ?_, hrefines.received, hrefines.routed⟩
  intro b hfree fromLsn
  apply Partitions.drainSince_congr
  intro l
  exact hrefines.settled b l fun op hop heq => hfree op hop heq.1

private def secondPending : List FanOutAction :=
  [.transport (.take (some (ownedInsert "a" "42"))), .transport (.send 0), .transport .receive,
    .transport .enqueue, .spawn (Rules.cachedOwner "42") 0, .append 0 7 false, .join,
    .transport (.take (some (ownedInsert "b" "43"))), .transport (.send 0), .transport .receive,
    .transport .enqueue, .spawn (Rules.cachedOwner "43") 0]

theorem fan_out_refines_route_second_pending : ∃ s p, run step init secondPending = some s ∧
    run Pipeline.step .init (secondPending.flatMap coarse) = some p ∧ s.pending.length = 1 ∧
    s.pipeline.log.drainSince (Rules.ownerAssignment "42").bucketId 0 =
      p.log.drainSince (Rules.ownerAssignment "42").bucketId 0 := by
  have hrun : run step init secondPending = some _ := rfl
  obtain ⟨p, hp, _, hscan, _⟩ := fan_out_refines_route hrun
  exact ⟨_, p, hrun, hp, by decide, hscan _ (by decide) 0⟩

/-- Offsets rise, what is stored has been passed, and the pending ops, those of one event, are
above all that their buckets hold, except where one of them is stored already. -/
structure Appending (s : FanOut) : Prop where
  rising : s.pipeline.Rising
  stored : s.pipeline.log.KeyedBy fun _ op => s.pipeline.Passed op.lsn
  pending : ∀ op ∈ s.pending, s.pipeline.Passed op.lsn
  last : ∀ op ∈ s.pending, ∀ l stored, (s.pipeline.log op.bucketId)[l]? = some stored →
    l < op.lsn ∨ l = op.lsn ∧ stored.op = op
  unique : ∀ x ∈ s.pending, ∀ y ∈ s.pending, x.bucketId = y.bucketId → x = y

theorem appending_init : init.Appending := by
  refine ⟨Pipeline.rising_init, ?_, ?_, ?_, ?_⟩
  · intro b l stored hget
    simp [init, Pipeline.init, Partitions.empty] at hget
  all_goals
    intro op hop
    cases hop

theorem Appending.transport (h : s.Appending) {a : PipelineAction} {q : Pipeline}
    (hturn : s.InTurn (.transport a)) (ha : ∀ assigner now wall, a ≠ .route assigner now wall)
    (hq : s.pipeline.step a = some q) :
    { s with pipeline := q, eventsReceived := s.eventsReceived + a.received }.Appending := by
  have hlog : q.log = s.pipeline.log := by
    rw [Pipeline.eq_withLog_of_step ha hq]
    rfl
  have hsteps : s.pipeline.InTurn a ∧
      ∀ payload, a = .take payload → s.pipeline.nextOffset < PgLsn.max := by
    cases a with
    | take payload => exact ⟨trivial, fun _ _ => hturn⟩
    | send _ | abandon _ | receive | enqueue | route _ _ _ | stop =>
      refine ⟨hturn, ?_⟩
      intro payload htake
      cases htake
  obtain ⟨hrising, hpassed⟩ := h.rising.step ha hsteps.1 hsteps.2 hq
  refine ⟨hrising, ?_, fun op hop => hpassed _ (h.pending op hop), ?_, h.unique⟩
  · rw [hlog]
    exact h.stored.imp fun _ op => hpassed op.lsn
  · rw [hlog]
    exact h.last

theorem Appending.spawn (h : s.Appending) {e : EventEnvelope} {queue : List EventEnvelope}
    (hqueue : s.pipeline.queue = e :: queue) (assigner : BucketAssigner) (now : Instant) :
    { s with
      pipeline := { s.pipeline with queue := queue }
      routing := some ⟨routedOps assigner now e, routedOps assigner now e, []⟩ }.Appending := by
  obtain ⟨hrising, hhead, hpassed⟩ := h.rising.tail hqueue
  refine ⟨hrising, ?_, ?_, ?_, ?_⟩
  · exact h.stored.imp fun _ op hop => (hpassed op.lsn hop).2
  · intro op hop
    rw [lsn_of_mem_routedOps hop]
    exact hhead
  · intro op hop l stored hget
    rw [lsn_of_mem_routedOps hop]
    obtain ⟨rfl, hl⟩ := h.stored op.bucketId l stored hget
    exact Or.inl (hpassed _ hl).1
  · intro x hx y hy
    exact routedOps_unique hx hy

theorem Appending.append_failed (h : s.Appending) {r : Routing} (hr : s.routing = some r) {i : Nat}
    {op : BucketOp} (hop : r.pending[i]? = some op) :
    { s with
      routing := some { r with pending := r.pending.eraseIdx i }
      lost := s.lost ++ [op] }.Appending := by
  have hsub (x : BucketOp) (hx : x ∈ r.pending.eraseIdx i) : x ∈ s.pending :=
    mem_pending_of_eraseIdx hr hop hx
  exact ⟨h.rising, h.stored, fun x hx => h.pending x (hsub x hx),
    fun x hx => h.last x (hsub x hx), fun x hx y hy => h.unique x (hsub x hx) y (hsub y hy)⟩

theorem Appending.append (h : s.Appending) {r : Routing} (hr : s.routing = some r) {i : Nat}
    {op : BucketOp} (hop : r.pending[i]? = some op) (wall : UInt64) :
    { s with
      pipeline := { s.pipeline with
        log := s.pipeline.log.append wall op.bucketId op.lsn op }
      routing := some { r with
        pending := r.pending.eraseIdx i
        succeeded := r.succeeded ++ [op.bucketId] } }.Appending := by
  have hsub (x : BucketOp) (hx : x ∈ r.pending.eraseIdx i) : x ∈ s.pending :=
    mem_pending_of_eraseIdx hr hop hx
  have hmem : op ∈ s.pending := by
    rw [pending_of_routing hr]
    exact (perm_ended hop).mem_iff.mp List.mem_cons_self
  refine ⟨⟨h.rising.sorted, h.rising.next⟩, ?_, fun x hx => h.pending x (hsub x hx), ?_,
    fun x hx y hy => h.unique x (hsub x hx) y (hsub y hy)⟩
  · exact h.stored.append wall op.bucketId (h.pending op hmem)
  · intro x hx l stored hget
    change (s.pipeline.log.append wall op.bucketId op.lsn op x.bucketId)[l]? = some stored at hget
    rw [Partitions.getElem?_append] at hget
    split at hget
    next heq =>
      cases hget
      rw [h.unique x (hsub x hx) op hmem heq.1]
      exact Or.inr ⟨heq.2, rfl⟩
    next => exact h.last x (hsub x hx) l stored hget

theorem Appending.join (h : s.Appending) {ops : List BucketOp} {succeeded : List BucketId} :
    { s with
      pipeline := { s.pipeline with appended := s.pipeline.appended ++ [ops] }
      routing := none
      opsRouted := fun b => s.opsRouted b + succeeded.count b }.Appending := by
  refine ⟨⟨h.rising.sorted, h.rising.next⟩, h.stored, ?_, ?_, ?_⟩
  all_goals
    intro op hop
    cases hop

def ExtendedBy (s t : FanOut) : Prop :=
  ∀ b fromLsn, s.pipeline.log.drainSince b fromLsn <+: t.pipeline.log.drainSince b fromLsn

theorem Appending.step {a : FanOutAction} (h : s.Appending) (hturn : s.InTurn a)
    (hstep : s.step a = some t) : t.Appending ∧ s.ExtendedBy t := by
  cases a with
  | transport a =>
    obtain ⟨ha, q, hq, rfl⟩ := step_transport_eq_some.mp hstep
    refine ⟨h.transport hturn ha hq, fun b fromLsn => ?_⟩
    change _ <+: q.log.drainSince b fromLsn
    rw [Pipeline.eq_withLog_of_step ha hq]
    exact ⟨[], List.append_nil _⟩
  | spawn assigner now =>
    obtain ⟨_, e, queue, hqueue, rfl⟩ := step_spawn_eq_some.mp hstep
    exact ⟨h.spawn hqueue assigner now, fun _ _ => ⟨[], List.append_nil _⟩⟩
  | append i wall failed =>
    obtain ⟨r, op, hr, hop, rfl⟩ := step_append_eq_some.mp hstep
    cases failed with
    | true => exact ⟨h.append_failed hr hop, fun _ _ => ⟨[], List.append_nil _⟩⟩
    | false =>
      refine ⟨h.append hr hop wall, fun b fromLsn => ?_⟩
      refine Partitions.drainSince_append_of_last (h.last op ?_) wall b fromLsn
      rw [pending_of_routing hr]
      exact (perm_ended hop).mem_iff.mp List.mem_cons_self
  | join =>
    obtain ⟨ops, succeeded, hr, rfl⟩ := step_join_eq_some.mp hstep
    exact ⟨h.join, fun _ _ => ⟨[], List.append_nil _⟩⟩

/-- Whatever a scan of a bucket yields at some moment, a later one yields first, as long as no
offset wraps and no call of `publish` is overtaken: an append task, however late it ends, never
puts an op before one that could be read. -/
theorem later_scans_extend {before after : List FanOutAction} {s t : FanOut}
    (h : Meets step InTurn init (before ++ after)) (hs : run step init before = some s)
    (ht : run step s after = some t) (b : BucketId) (fromLsn : PgLsn) :
    s.pipeline.log.drainSince b fromLsn <+: t.pipeline.log.drainSince b fromLsn := by
  have hstart : s.Appending :=
    h.append_left.invariant (fun _ _ _ hI hG hstep => (hI.step hG hstep).1) appending_init hs
  have hend : t.Appending ∧ s.ExtendedBy t := by
    refine (h.append_right hs).invariant (I := fun u => u.Appending ∧ s.ExtendedBy u) ?_
      ⟨hstart, fun _ _ => ⟨[], List.append_nil _⟩⟩ ht
    intro u a v hu hturn hstep
    obtain ⟨hv, hmore⟩ := hu.1.step hturn hstep
    exact ⟨hv, fun b fromLsn => (hu.2 b fromLsn).trans (hmore b fromLsn)⟩
  exact hend.2 b fromLsn

theorem later_scans_extend_second_append : ∃ s t, run step init secondPending = some s ∧
    run step s [.append 0 9 false, .join] = some t ∧
    s.pipeline.log.drainSince (Rules.ownerAssignment "43").bucketId 0 <+:
      t.pipeline.log.drainSince (Rules.ownerAssignment "43").bucketId 0 := by
  have hturn : Meets step InTurn init (secondPending ++ [.append 0 9 false, .join]) := by decide
  have hs : run step init secondPending = some _ := rfl
  exact ⟨_, _, hs, rfl, later_scans_extend hturn hs rfl _ 0⟩

end FanOut

end EntitySync.Router
