import EntitySync.Router.Server

/-!
# Concurrent publishing

`InProcessBroker::publish` takes its offset under the lock and sends on the channel after it has
released it, so a call can be overtaken by another one in between. The router reads the channel
and hands each event to its writer task through a second channel, which it alone fills. Offsets
reach the op log in order exactly when no call is overtaken. That is so for one producer that
awaits each call, and its runs are those of `Server`, where publishing is one step.
-/

namespace EntitySync.Router

open Oplog (Partitions)
open Rules (BucketAssigner Instant)
open StepSystem

def channelBuffer : Nat := 1024

def backpressureCapacity : Nat := 1000

structure Pipeline where
  nextOffset : UInt64
  /-- The calls of `publish` that have taken an offset and have not sent, oldest first. -/
  waiting : List EventEnvelope
  channel : List EventEnvelope
  /-- The router has dropped the subscription. -/
  closed : Bool
  /-- All that the subscription has yielded, oldest first. -/
  received : List EventEnvelope
  /-- The event that the router waits to hand to the writer task. -/
  holding : Option EventEnvelope
  queue : List EventEnvelope
  log : Partitions
  appended : List (List BucketOp)

inductive PipelineAction where
  /-- A call of `publish` takes an offset and releases the lock. -/
  | take (payload : Option EntityChange)
  /-- The call at position `i` of the waiting ones sends. -/
  | send (i : Nat)
  /-- The call at position `i` ends without sending: it is dropped, or the channel is closed. -/
  | abandon (i : Nat)
  | receive
  | enqueue
  | route (assigner : BucketAssigner) (now : Instant) (wall : UInt64)
  | stop

namespace Pipeline

def init : Pipeline := ⟨0, [], [], false, [], none, [], Partitions.empty, []⟩

def step (s : Pipeline) : PipelineAction → Option Pipeline
  | .take payload =>
    some {
      s with
      nextOffset := s.nextOffset + 1
      waiting := s.waiting ++ [⟨s.nextOffset, payload⟩] }
  | .send i =>
    match s.waiting[i]? with
    | none => none
    | some envelope =>
      if s.closed = false ∧ s.channel.length < channelBuffer then
        some { s with waiting := s.waiting.eraseIdx i, channel := s.channel ++ [envelope] }
      else none
  | .abandon i =>
    if i < s.waiting.length then some { s with waiting := s.waiting.eraseIdx i } else none
  | .receive =>
    match s.channel, s.holding with
    | envelope :: channel, none =>
      some {
        s with
        channel := channel
        received := s.received ++ [envelope]
        holding := some envelope }
    | _, _ => none
  | .enqueue =>
    match s.holding with
    | some envelope =>
      if s.queue.length < backpressureCapacity then
        some { s with holding := none, queue := s.queue ++ [envelope] }
      else none
    | none => none
  | .route assigner now wall =>
    match s.queue with
    | [] => none
    | envelope :: queue =>
      let ops := routedOps assigner now envelope
      some {
        s with
        queue := queue
        log := appendAll wall s.log ops
        appended := s.appended ++ [ops] }
  | .stop => some { s with channel := [], closed := true, holding := none }

/-- The offsets are `0, 1, 2, …` in this order. -/
def Numbered (events : List EventEnvelope) : Prop :=
  events.map (·.offset.toNat) = List.range events.length

instance (events : List EventEnvelope) : Decidable (Numbered events) :=
  inferInstanceAs (Decidable (_ = _))

/-- What the subscriber has received and what it receives next is in offset order without gaps,
and the router has not appended an LSN below one it appended before. -/
def InOrder (s : Pipeline) : Prop :=
  Numbered (s.received ++ s.channel) ∧ s.appended.flatten.Pairwise fun x y => x.lsn ≤ y.lsn

def Undisturbed (s : Pipeline) : PipelineAction → Prop
  | .take _ => s.nextOffset < PgLsn.max
  | .abandon _ => s.closed = true
  | _ => True

def InTurn (_ : Pipeline) : PipelineAction → Prop
  | .send i => i = 0
  | _ => True

def OneProducer (s : Pipeline) : PipelineAction → Prop
  | .take _ => s.waiting = []
  | _ => True

instance (s : Pipeline) (a : PipelineAction) : Decidable (s.Undisturbed a) :=
  match a with
  | .take _ => inferInstanceAs (Decidable (_ < _))
  | .abandon _ => inferInstanceAs (Decidable (_ = true))
  | .send _ | .receive | .enqueue | .route _ _ _ | .stop => isTrue trivial

instance (s : Pipeline) (a : PipelineAction) : Decidable (s.InTurn a) :=
  match a with
  | .send _ => inferInstanceAs (Decidable (_ = 0))
  | .take _ | .abandon _ | .receive | .enqueue | .route _ _ _ | .stop => isTrue trivial

theorem Numbered.append_left {xs ys : List EventEnvelope} (h : Numbered (xs ++ ys)) :
    Numbered xs := by
  have htake := congrArg (List.take xs.length) h
  simpa [Numbered, List.take_range] using htake

theorem numbered_concat {xs : List EventEnvelope} {e : EventEnvelope} :
    Numbered (xs ++ [e]) ↔ Numbered xs ∧ e.offset.toNat = xs.length := by
  simp [Numbered, List.range_succ]

theorem Numbered.offset_eq {xs : List EventEnvelope} (h : Numbered xs) {i : Nat}
    {e : EventEnvelope} (he : xs[i]? = some e) : e.offset.toNat = i := by
  obtain ⟨hi, rfl⟩ := List.getElem?_eq_some_iff.mp he
  have hget := congrArg (·[i]?) h
  simpa [hi] using hget

theorem Numbered.pairwise_lt {xs : List EventEnvelope} (h : Numbered xs) :
    xs.Pairwise fun x y => x.offset < y.offset := by
  have hrange : (xs.map (·.offset.toNat)).Pairwise (· < ·) := by
    rw [h]
    exact List.pairwise_lt_range
  rw [List.pairwise_map] at hrange
  exact hrange.imp UInt64.lt_iff_toNat_lt.mpr

def Stamped : List EventEnvelope → List (List BucketOp) → Prop :=
  List.Forall₂ fun event ops => ∀ op ∈ ops, op.lsn = event.offset

theorem Stamped.exists_event {routed : List EventEnvelope} {appended : List (List BucketOp)}
    (h : Stamped routed appended) {op : BucketOp} (hop : op ∈ appended.flatten) :
    ∃ event ∈ routed, op.lsn = event.offset := by
  induction h with
  | nil => cases hop
  | @cons event ops routed appended hops _ ih =>
    rw [List.flatten_cons, List.mem_append] at hop
    cases hop with
    | inl hnew => exact ⟨event, List.mem_cons_self, hops op hnew⟩
    | inr hold =>
      obtain ⟨other, hmem, hlsn⟩ := ih hold
      exact ⟨other, List.mem_cons_of_mem _ hmem, hlsn⟩

theorem Stamped.pairwise_le {routed : List EventEnvelope} {appended : List (List BucketOp)}
    (h : Stamped routed appended) (hlt : routed.Pairwise fun x y => x.offset < y.offset) :
    appended.flatten.Pairwise fun x y => x.lsn ≤ y.lsn := by
  induction h with
  | nil => exact List.Pairwise.nil
  | @cons event ops routed appended hops hrest ih =>
    rw [List.pairwise_cons] at hlt
    rw [List.flatten_cons, List.pairwise_append]
    refine ⟨?_, ih hlt.2, ?_⟩
    · apply List.pairwise_of_forall_mem_list
      intro x hx y hy
      rw [hops x hx, hops y hy]
      exact UInt64.le_refl _
    · intro x hx y hy
      obtain ⟨later, hmem, hlsn⟩ := Stamped.exists_event hrest hy
      rw [hops x hx, hlsn]
      exact UInt64.le_of_lt (hlt.1 later hmem)

/-- What is sent is numbered; while the subscription is open, so is everything that has an
offset; and the router has kept the order in which it received the events. -/
private structure Ordered (s : Pipeline) : Prop where
  sent : Numbered (s.received ++ s.channel)
  taken : s.closed = false → Numbered (s.received ++ s.channel ++ s.waiting)
  next : s.closed = false →
    s.nextOffset.toNat = (s.received ++ s.channel ++ s.waiting).length
  routed : ∃ routed, Stamped routed s.appended ∧
    (routed ++ s.queue ++ s.holding.toList).Sublist s.received

private theorem ordered_init : Ordered init :=
  ⟨rfl, fun _ => rfl, fun _ => rfl, [], .nil, .slnil⟩

private theorem Ordered.inOrder {s : Pipeline} (h : Ordered s) : s.InOrder := by
  obtain ⟨routed, hstamped, hsub⟩ := h.routed
  refine ⟨h.sent, hstamped.pairwise_le ?_⟩
  have hroutedSub : routed.Sublist s.received :=
    ((List.sublist_append_left _ _).trans (List.sublist_append_left _ _)).trans hsub
  exact h.sent.append_left.pairwise_lt.sublist hroutedSub

variable {s t : Pipeline} {i : Nat}

private theorem Ordered.take (h : Ordered s) (hnext : s.nextOffset < PgLsn.max)
    (payload : Option EntityChange) :
    Ordered {
      s with
      nextOffset := s.nextOffset + 1
      waiting := s.waiting ++ [⟨s.nextOffset, payload⟩] } := by
  refine ⟨h.sent, ?_, ?_, h.routed⟩
  · intro hopen
    rw [← List.append_assoc, numbered_concat]
    exact ⟨h.taken hopen, h.next hopen⟩
  · intro hopen
    rw [← List.append_assoc, List.length_append, ← h.next hopen]
    exact PgLsn.toNat_succ hnext

/-- The offset of a waiting call is the number of events that were taken before. -/
private theorem Ordered.offset_of_waiting (h : Ordered s) (hopen : s.closed = false)
    {e : EventEnvelope} (he : s.waiting[i]? = some e) :
    e.offset.toNat = (s.received ++ s.channel).length + i := by
  apply (h.taken hopen).offset_eq
  rw [List.getElem?_append_right (Nat.le_add_right _ _), Nat.add_sub_cancel_left]
  exact he

theorem step_send_eq_some : s.step (.send i) = some t ↔ ∃ e, s.waiting[i]? = some e ∧
    s.closed = false ∧ s.channel.length < channelBuffer ∧
    t = { s with waiting := s.waiting.eraseIdx i, channel := s.channel ++ [e] } := by
  cases he : s.waiting[i]? with
  | none => simp [step, he]
  | some e =>
    simp only [step, he, Option.ite_none_right_eq_some, Option.some.injEq, and_assoc,
      exists_eq_left', eq_comm (a := t)]

theorem step_receive_eq_some : s.step .receive = some t ↔ ∃ e channel,
    s.channel = e :: channel ∧ s.holding = none ∧
    t = { s with channel := channel, received := s.received ++ [e], holding := some e } := by
  cases hchannel : s.channel with
  | nil => simp [step, hchannel]
  | cons e channel =>
    cases hholding : s.holding with
    | none => simp [step, hchannel, hholding, eq_comm]
    | some other => simp [step, hchannel, hholding]

theorem step_enqueue_eq_some : s.step .enqueue = some t ↔ ∃ e, s.holding = some e ∧
    s.queue.length < backpressureCapacity ∧
    t = { s with holding := none, queue := s.queue ++ [e] } := by
  cases hholding : s.holding with
  | none => simp [step, hholding]
  | some e => simp [step, hholding, eq_comm]

theorem step_route_eq_some {assigner : BucketAssigner} {now : Instant} {wall : UInt64} :
    s.step (.route assigner now wall) = some t ↔ ∃ e queue, s.queue = e :: queue ∧
    t = { s with
      queue := queue
      log := appendAll wall s.log (routedOps assigner now e)
      appended := s.appended ++ [routedOps assigner now e] } := by
  cases hqueue : s.queue with
  | nil => simp [step, hqueue]
  | cons e queue => simp [step, hqueue, eq_comm]

private theorem Ordered.numbered_send_iff (h : Ordered s) (hopen : s.closed = false)
    {e : EventEnvelope} (he : s.waiting[i]? = some e) :
    Numbered (s.received ++ (s.channel ++ [e])) ↔ i = 0 := by
  rw [← List.append_assoc, numbered_concat, h.offset_of_waiting hopen he]
  constructor
  · intro hnumbered
    omega
  · intro hi
    exact ⟨h.sent, by rw [hi, Nat.add_zero]⟩

private theorem Ordered.send (h : Ordered s) (hopen : s.closed = false) {e : EventEnvelope}
    (he : s.waiting[0]? = some e) :
    Ordered { s with waiting := s.waiting.eraseIdx 0, channel := s.channel ++ [e] } := by
  have hwaiting : s.received ++ (s.channel ++ [e]) ++ s.waiting.eraseIdx 0 =
      s.received ++ s.channel ++ s.waiting := by
    cases hw : s.waiting with
    | nil =>
      rw [hw] at he
      cases he
    | cons x xs =>
      rw [hw] at he
      cases he
      simp
  refine ⟨(h.numbered_send_iff hopen he).mpr rfl, ?_, ?_, h.routed⟩
  · rw [hwaiting]
    exact h.taken
  · rw [hwaiting]
    exact h.next

private theorem Ordered.receive (h : Ordered s) {e : EventEnvelope}
    {channel : List EventEnvelope} (hchannel : s.channel = e :: channel)
    (hholding : s.holding = none) :
    Ordered { s with
      channel := channel, received := s.received ++ [e], holding := some e } := by
  have hmoved : s.received ++ [e] ++ channel = s.received ++ s.channel := by
    rw [hchannel, List.append_assoc, List.singleton_append]
  obtain ⟨routed, hstamped, hsub⟩ := h.routed
  rw [hholding, Option.toList_none, List.append_nil] at hsub
  refine ⟨?_, ?_, ?_, routed, hstamped, hsub.append (List.Sublist.refl _)⟩
  · rw [hmoved]
    exact h.sent
  · rw [hmoved]
    exact h.taken
  · rw [hmoved]
    exact h.next

private theorem Ordered.route (h : Ordered s) {e : EventEnvelope} {queue : List EventEnvelope}
    (hqueue : s.queue = e :: queue) (assigner : BucketAssigner) (now : Instant) :
    ∃ routed, Stamped routed (s.appended ++ [routedOps assigner now e]) ∧
      (routed ++ queue ++ s.holding.toList).Sublist s.received := by
  obtain ⟨routed, hstamped, hsub⟩ := h.routed
  refine ⟨routed ++ [e], ?_, ?_⟩
  · exact List.rel_append hstamped
      (.cons (fun op hop => lsn_of_mem_routedOps hop) .nil)
  · rwa [hqueue, ← List.singleton_append, ← List.append_assoc] at hsub

private theorem Ordered.step {a : PipelineAction} (h : Ordered s) (hE : s.Undisturbed a)
    (hturn : s.InTurn a) (hstep : s.step a = some t) : Ordered t := by
  cases a with
  | take payload =>
    cases hstep
    exact h.take hE payload
  | send i =>
    obtain ⟨e, he, hopen, _, rfl⟩ := step_send_eq_some.mp hstep
    cases hturn
    exact h.send hopen he
  | abandon i =>
    simp only [Pipeline.step, Option.ite_none_right_eq_some, Option.some.injEq] at hstep
    obtain ⟨_, rfl⟩ := hstep
    have hclosed : s.closed ≠ false := by
      rw [show s.closed = true from hE]
      decide
    exact ⟨h.sent, fun hopen => absurd hopen hclosed, fun hopen => absurd hopen hclosed, h.routed⟩
  | receive =>
    obtain ⟨e, channel, hchannel, hholding, rfl⟩ := step_receive_eq_some.mp hstep
    exact h.receive hchannel hholding
  | enqueue =>
    obtain ⟨e, hholding, _, rfl⟩ := step_enqueue_eq_some.mp hstep
    exact ⟨h.sent, h.taken, h.next, by simpa [hholding] using h.routed⟩
  | route assigner now wall =>
    obtain ⟨e, queue, hqueue, rfl⟩ := step_route_eq_some.mp hstep
    exact ⟨h.sent, h.taken, h.next, h.route hqueue assigner now⟩
  | stop =>
    cases hstep
    refine ⟨?_, fun hopen => absurd hopen (by simp), fun hopen => absurd hopen (by simp), ?_⟩
    · rw [List.append_nil]
      exact h.sent.append_left
    · obtain ⟨routed, hstamped, hsub⟩ := h.routed
      refine ⟨routed, hstamped, ?_⟩
      rw [Option.toList_none, List.append_nil]
      exact (List.sublist_append_left _ _).trans hsub

/-- In a run in which the counter does not wrap and no call is dropped while it waits, all that
is sent is in offset order without gaps, and the LSNs that the router appends never fall, exactly
if each call sends when no earlier one is waiting. -/
theorem in_order_iff_in_turn {actions : List PipelineAction}
    (h : Meets Pipeline.step Undisturbed init actions) :
    Always Pipeline.step InOrder init actions ↔ Meets Pipeline.step InTurn init actions := by
  have hturn {s t : Pipeline} {a : PipelineAction} (hs : Ordered s)
      (hstep : s.step a = some t) (ht : t.InOrder) : s.InTurn a := by
    cases a with
    | send i =>
      obtain ⟨e, he, hopen, _, rfl⟩ := step_send_eq_some.mp hstep
      exact (hs.numbered_send_iff hopen he).mp ht.1
    | take _ | abandon _ | receive | enqueue | route _ _ _ | stop => trivial
  refine always_iff_meets (fun s hs => hs.inOrder) ?_ ?_ h ordered_init
  · intro s a t hs hE hstep
    exact ⟨hturn hs hstep, fun hC => (hs.step hE hC hstep).inOrder⟩
  · intro s a t hs hE hstep ht
    exact hs.step hE (hturn hs hstep ht) hstep

/-- Two calls take their offsets before the first of them sends; `first` and `second` are the
positions from which they send. -/
private def twoCalls (first second : Nat) : List PipelineAction :=
  [.take (some (ownedInsert "a" "42")), .take (some (ownedInsert "b" "42")), .send first,
    .send second, .receive, .enqueue, .route (Rules.cachedOwner "42") 0 0, .receive, .enqueue,
    .route (Rules.cachedOwner "42") 0 0]

theorem in_order_two_calls_in_turn : Always Pipeline.step InOrder init (twoCalls 0 0) :=
  (in_order_iff_in_turn (by decide)).mpr (by decide)

/-- The second call sends first: the router receives offset 1 before offset 0 and appends in this
order. -/
theorem second_call_overtakes : ∃ s, run Pipeline.step init (twoCalls 1 0) = some s ∧
    s.received.map (·.offset) = [1, 0] ∧ s.appended.flatten.map (·.lsn) = [1, 0] := by
  refine ⟨_, rfl, ?_, ?_⟩ <;> decide

/-- One producer that awaits each call always sends in turn. -/
theorem in_turn_of_one_producer {actions : List PipelineAction}
    (h : Meets Pipeline.step OneProducer init actions) :
    Meets Pipeline.step InTurn init actions := by
  refine h.imp (I := fun s => s.waiting.length ≤ 1) ?_ (by decide)
  intro s a t hs hG hstep
  cases a with
  | take payload =>
    cases hstep
    simp [show s.waiting = [] from hG, InTurn]
  | send i =>
    obtain ⟨e, he, _, _, rfl⟩ := step_send_eq_some.mp hstep
    have hi : i < s.waiting.length := (List.getElem?_eq_some_iff.mp he).1
    refine ⟨?_, Nat.le_trans (List.length_eraseIdx_le _ _) hs⟩
    change i = 0
    omega
  | abandon i =>
    simp only [Pipeline.step, Option.ite_none_right_eq_some, Option.some.injEq] at hstep
    obtain ⟨_, rfl⟩ := hstep
    exact ⟨trivial, Nat.le_trans (List.length_eraseIdx_le _ _) hs⟩
  | receive =>
    obtain ⟨_, _, _, _, rfl⟩ := step_receive_eq_some.mp hstep
    exact ⟨trivial, hs⟩
  | enqueue =>
    obtain ⟨_, _, _, rfl⟩ := step_enqueue_eq_some.mp hstep
    exact ⟨trivial, hs⟩
  | route assigner now wall =>
    obtain ⟨_, _, _, rfl⟩ := step_route_eq_some.mp hstep
    exact ⟨trivial, hs⟩
  | stop =>
    cases hstep
    exact ⟨trivial, hs⟩

/-- The server in which publishing is one step: an event is published once it has an offset and
leaves the broker when it is routed. -/
def toServer (s : Pipeline) : Server where
  broker := ⟨s.nextOffset, s.queue ++ s.holding.toList ++ s.channel ++ s.waiting⟩
  log := s.log
  appended := s.appended

def serverActions : PipelineAction → List ServerAction
  | .take payload => [.publish payload]
  | .route assigner now wall => [.route assigner now wall]
  | .send _ | .abandon _ | .receive | .enqueue | .stop => []

def Lossless (s : Pipeline) : PipelineAction → Prop
  | .abandon _ | .stop => False
  | a => s.InTurn a

theorem toServer_step {a : PipelineAction} (h : s.Lossless a) (hstep : s.step a = some t) :
    run Server.step s.toServer (serverActions a) = some t.toServer := by
  cases a with
  | take payload =>
    cases hstep
    simp [serverActions, Server.step, toServer, InProcessBroker.publish]
  | send i =>
    obtain ⟨e, he, _, _, rfl⟩ := step_send_eq_some.mp hstep
    cases (show i = 0 from h)
    cases hwaiting : s.waiting with
    | nil => simp [hwaiting] at he
    | cons x xs =>
      cases (show x = e by simpa [hwaiting] using he)
      simp [serverActions, toServer, hwaiting]
  | abandon _ | stop => cases h
  | receive =>
    obtain ⟨e, channel, hchannel, hholding, rfl⟩ := step_receive_eq_some.mp hstep
    simp [serverActions, toServer, hchannel, hholding]
  | enqueue =>
    obtain ⟨e, hholding, _, rfl⟩ := step_enqueue_eq_some.mp hstep
    simp [serverActions, toServer, hholding]
  | route assigner now wall =>
    obtain ⟨e, queue, hqueue, rfl⟩ := step_route_eq_some.mp hstep
    simp [serverActions, toServer, Server.step, hqueue]

/-- Where no call is overtaken, concurrent publishing is publishing in one step. -/
theorem run_toServer {actions : List PipelineAction} {s : Pipeline}
    (h : Meets Pipeline.step Lossless init actions)
    (hrun : run Pipeline.step init actions = some s) :
    run Server.step Server.init (actions.flatMap serverActions) = some s.toServer :=
  run_simulation (fun _ _ _ hG hstep => toServer_step hG hstep) h hrun

end Pipeline

end EntitySync.Router
