import EntitySync.Router.FanOut

/-!
# Progress of the router

The broker's channel and the router's queue are bounded, and each stage waits for the next one.
While the router runs, the stages never block each other: as long as an event is in flight, some
stage can move, and each event moves a fixed number of times until its appends are made.
-/

namespace EntitySync.Router.FanOut

open Rules (BucketAssigner Instant)
open StepSystem

def Moves : FanOutAction → Bool
  | .transport (.send _) | .transport .receive | .transport .enqueue | .spawn _ _
  | .append _ _ _ | .join => true
  | .transport (.take _) | .transport (.abandon _) | .transport (.route _ _ _)
  | .transport .stop => false

def isAppend : FanOutAction → Bool
  | .append _ _ _ => true
  | .transport _ | .spawn _ _ | .join => false

def inFlight (s : FanOut) : Nat :=
  s.pipeline.waiting.length + s.pipeline.channel.length + s.pipeline.holding.toList.length +
    s.pipeline.queue.length + s.routing.toList.length

/-- How often the events in flight still move: sent, received, queued, spawned and joined. -/
def moves (s : FanOut) : Nat :=
  5 * s.pipeline.waiting.length + 4 * s.pipeline.channel.length +
    3 * s.pipeline.holding.toList.length + 2 * s.pipeline.queue.length + s.routing.toList.length

structure Carried (s t : FanOut) (events : Nat) : Prop where
  moved : events + t.moves = s.moves
  kept : t.pipeline.appended.length + t.inFlight = s.pipeline.appended.length + s.inFlight
  closed : t.pipeline.closed = s.pipeline.closed

variable {s t u : FanOut} {a : FanOutAction}

theorem Carried.trans {m n : Nat} (h : s.Carried t m) (h' : t.Carried u n) :
    s.Carried u (m + n) := by
  refine ⟨?_, h'.kept.trans h.kept, h'.closed.trans h.closed⟩
  rw [← h.moved, ← h'.moved, Nat.add_assoc]

theorem length_eraseIdx_of_getElem? {l : List EventEnvelope} {i : Nat} {e : EventEnvelope}
    (h : l[i]? = some e) : (l.eraseIdx i).length + 1 = l.length := by
  have hi : i < l.length := (List.getElem?_eq_some_iff.mp h).1
  rw [List.length_eraseIdx_of_lt hi]
  omega

theorem carried_of_transport {b : PipelineAction} (hmoves : Moves (.transport b))
    (hstep : s.step (.transport b) = some t) : s.Carried t 1 := by
  obtain ⟨_, q, hq, rfl⟩ := step_transport_eq_some.mp hstep
  cases b with
  | take _ | abandon _ | route _ _ _ | stop => cases hmoves
  | send i =>
    obtain ⟨e, he, _, _, rfl⟩ := Pipeline.step_send_eq_some.mp hq
    have hlength := length_eraseIdx_of_getElem? he
    refine ⟨?_, ?_, rfl⟩
    · simp only [moves, List.length_append, List.length_singleton]
      omega
    · simp only [inFlight, List.length_append, List.length_singleton]
      omega
  | receive =>
    obtain ⟨e, channel, hchannel, hholding, rfl⟩ := Pipeline.step_receive_eq_some.mp hq
    refine ⟨?_, ?_, rfl⟩
    · simp only [moves, hchannel, hholding, Option.toList_none, Option.toList_some,
        List.length_cons, List.length_nil]
      omega
    · simp only [inFlight, hchannel, hholding, Option.toList_none, Option.toList_some,
        List.length_cons, List.length_nil]
      omega
  | enqueue =>
    obtain ⟨e, hholding, _, rfl⟩ := Pipeline.step_enqueue_eq_some.mp hq
    refine ⟨?_, ?_, rfl⟩
    · simp only [moves, hholding, Option.toList_none, Option.toList_some, List.length_append,
        List.length_cons, List.length_nil]
      omega
    · simp only [inFlight, hholding, Option.toList_none, Option.toList_some, List.length_append,
        List.length_cons, List.length_nil]
      omega

theorem carried_of_step (hmoves : Moves a) (hstep : s.step a = some t) :
    s.Carried t (if isAppend a then 0 else 1) := by
  cases a with
  | transport b => exact carried_of_transport hmoves hstep
  | spawn assigner now =>
    obtain ⟨hrouting, e, queue, hqueue, rfl⟩ := step_spawn_eq_some.mp hstep
    refine ⟨?_, ?_, rfl⟩
    · simp only [isAppend, moves, hrouting, hqueue, Option.toList_none, Option.toList_some,
        List.length_cons, List.length_nil]
      simp
      omega
    · simp only [inFlight, hrouting, hqueue, Option.toList_none, Option.toList_some,
        List.length_cons, List.length_nil]
      omega
  | append i wall failed =>
    obtain ⟨r, op, hr, hop, rfl⟩ := step_append_eq_some.mp hstep
    cases failed with
    | true => exact ⟨by simp [isAppend, moves, hr], by simp [inFlight, hr], rfl⟩
    | false => exact ⟨by simp [isAppend, moves, hr], by simp [inFlight, hr], rfl⟩
  | join =>
    obtain ⟨ops, succeeded, hr, rfl⟩ := step_join_eq_some.mp hstep
    refine ⟨?_, ?_, rfl⟩
    · simp [isAppend, moves, hr]
      omega
    · simp [inFlight, hr]
      omega

theorem carried_of_run {actions : List FanOutAction} (hmoves : ∀ a ∈ actions, Moves a)
    (hrun : run step s actions = some t) :
    s.Carried t (actions.countP fun a => !isAppend a) := by
  induction actions generalizing s with
  | nil =>
    cases hrun
    exact ⟨Nat.zero_add _, rfl, rfl⟩
  | cons a actions ih =>
    obtain ⟨u, hu, hrun⟩ := run_cons_eq_some.mp hrun
    have hfirst := carried_of_step (hmoves a List.mem_cons_self) hu
    have hrest := ih (fun b hb => hmoves b (List.mem_cons_of_mem _ hb)) hrun
    have hboth := hfirst.trans hrest
    rw [List.countP_cons, Nat.add_comm]
    cases happend : isAppend a with
    | true => simpa [happend] using hboth
    | false => simpa [happend] using hboth

/-- No stage waits for another one for ever: the first of them that holds an event can move. -/
theorem exists_move (hopen : s.pipeline.closed = false) (hflight : s.inFlight ≠ 0)
    (assigner : BucketAssigner) (now : Instant) : ∃ a t, Moves a ∧ s.step a = some t := by
  cases hrouting : s.routing with
  | some r =>
    cases hpending : r.pending with
    | nil =>
      obtain ⟨ops, pending, succeeded⟩ := r
      cases hpending
      exact ⟨.join, _, rfl, step_join_eq_some.mpr ⟨ops, succeeded, hrouting, rfl⟩⟩
    | cons op rest =>
      refine ⟨.append 0 0 false, _, rfl, step_append_eq_some.mpr ⟨r, op, hrouting, ?_, rfl⟩⟩
      rw [hpending, List.getElem?_cons_zero]
  | none =>
    cases hqueue : s.pipeline.queue with
    | cons e queue =>
      exact ⟨.spawn assigner now, _, rfl,
        step_spawn_eq_some.mpr ⟨hrouting, e, queue, hqueue, rfl⟩⟩
    | nil =>
      -- the writer task is idle and its queue is empty, so the router can hand an event on
      have htransport {b : PipelineAction} {q : Pipeline}
          (hb : ∀ assigner now wall, b ≠ .route assigner now wall)
          (hq : s.pipeline.step b = some q) : ∃ t, s.step (.transport b) = some t :=
        ⟨_, step_transport_eq_some.mpr ⟨hb, q, hq, rfl⟩⟩
      cases hholding : s.pipeline.holding with
      | some e =>
        obtain ⟨t, ht⟩ := htransport (b := .enqueue) (by simp)
          (Pipeline.step_enqueue_eq_some.mpr
            ⟨e, hholding, by simp [hqueue, backpressureCapacity], rfl⟩)
        exact ⟨_, t, rfl, ht⟩
      | none =>
        cases hchannel : s.pipeline.channel with
        | cons e channel =>
          obtain ⟨t, ht⟩ := htransport (b := .receive) (by simp)
            (Pipeline.step_receive_eq_some.mpr ⟨e, channel, hchannel, hholding, rfl⟩)
          exact ⟨_, t, rfl, ht⟩
        | nil =>
          cases hwaiting : s.pipeline.waiting with
          | cons e waiting =>
            obtain ⟨t, ht⟩ := htransport (b := .send 0) (by simp)
              (Pipeline.step_send_eq_some.mpr ⟨e, by simp [hwaiting], hopen,
                by simp [hchannel, channelBuffer], rfl⟩)
            exact ⟨_, t, rfl, ht⟩
          | nil => simp [inFlight, hrouting, hqueue, hholding, hchannel, hwaiting] at hflight

theorem pending_of_append (happend : isAppend a) (hstep : s.step a = some t) :
    t.pending.length < s.pending.length := by
  cases a with
  | transport _ | spawn _ _ | join => cases happend
  | append i wall failed =>
    obtain ⟨r, op, hr, hop, rfl⟩ := step_append_eq_some.mp hstep
    have hlength := (perm_ended hop).length_eq
    rw [List.length_cons] at hlength
    rw [pending_of_routing hr]
    cases failed with
    | true =>
      change (r.pending.eraseIdx i).length < _
      omega
    | false =>
      change (r.pending.eraseIdx i).length < _
      omega

/-- Each move brings an event nearer to its appends, or ends one of them. -/
theorem lex_of_step (hmoves : Moves a) (hstep : s.step a = some t) :
    Prod.Lex (· < ·) (· < ·) (t.moves, t.pending.length) (s.moves, s.pending.length) := by
  have hcarried := (carried_of_step hmoves hstep).moved
  cases happend : isAppend a with
  | true =>
    rw [happend, if_pos rfl, Nat.zero_add] at hcarried
    rw [hcarried]
    exact .right _ (pending_of_append happend hstep)
  | false =>
    rw [happend, if_neg (by decide)] at hcarried
    exact .left _ _ (by omega)

theorem exists_drained (s : FanOut) (hopen : s.pipeline.closed = false) (assigner : BucketAssigner)
    (now : Instant) : ∃ rest t, (∀ a ∈ rest, Moves a) ∧ run step s rest = some t ∧
      t.inFlight = 0 := by
  by_cases hflight : s.inFlight = 0
  · exact ⟨[], s, by simp, rfl, hflight⟩
  · obtain ⟨a, u, ha, hu⟩ := exists_move hopen hflight assigner now
    have hclosed := (carried_of_step ha hu).closed.trans hopen
    obtain ⟨rest, t, hrest, ht, hdrained⟩ := exists_drained u hclosed assigner now
    refine ⟨a :: rest, t, List.forall_mem_cons.mpr ⟨ha, hrest⟩, ?_, hdrained⟩
    rw [run_cons, hu, Option.bind_some, ht]
termination_by (s.moves, s.pending.length)
decreasing_by exact lex_of_step ha hu

end EntitySync.Router.FanOut
