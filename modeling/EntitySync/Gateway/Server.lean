import EntitySync.Library.Slots
import EntitySync.Library.StepSystem

/-!
# The accept loop

`GatewayServer::run` compares the counter of open connections with the limit and spawns one task
for each connection it admits. It is the task that increments the counter, when it first runs, so
the loop can admit further connections before the counter shows the ones it has just admitted.
-/

namespace EntitySync.Gateway

open StepSystem

inductive ConnectionTask where
  | spawned
  | handshaking
  | serving
  /-- The handshake failed or the handler returned, and the counter is still to be decremented. -/
  | ending
  | finished
deriving DecidableEq

namespace ConnectionTask

def isOpen : ConnectionTask → Bool
  | .spawned | .handshaking | .serving => true
  | .ending | .finished => false

end ConnectionTask

structure GatewayServer where
  maxConnections : Nat
  connectionCount : Nat
  tasks : List ConnectionTask
  running : Bool

inductive ServerAction where
  /-- One iteration of the accept loop. -/
  | accept
  /-- `shutdown` is cancelled, or the listener fails. -/
  | stop
  | start (i : Nat)
  | handshake (i : Nat) (ok : Bool)
  | handlerEnds (i : Nat)
  | decrement (i : Nat)

namespace GatewayServer

def bind (maxConnections : Nat) : GatewayServer := ⟨maxConnections, 0, [], true⟩

def move (s : GatewayServer) (i : Nat) (source target : ConnectionTask) :
    Option GatewayServer :=
  if s.tasks[i]? = some source then some { s with tasks := s.tasks.set i target } else none

def step (s : GatewayServer) : ServerAction → Option GatewayServer
  | .accept =>
    if s.running then
      if s.connectionCount ≥ s.maxConnections then some s
      else some { s with tasks := s.tasks ++ [.spawned] }
    else none
  | .stop => if s.running then some { s with running := false } else none
  | .start i =>
    (s.move i .spawned .handshaking).map fun t =>
      { t with connectionCount := t.connectionCount + 1 }
  | .handshake i ok => s.move i .handshaking (if ok then .serving else .ending)
  | .handlerEnds i => s.move i .serving .ending
  | .decrement i =>
    (s.move i .ending .finished).map fun t =>
      { t with connectionCount := t.connectionCount - 1 }

def openConnections (s : GatewayServer) : Nat := s.tasks.countP (·.isOpen)

def WithinLimit (s : GatewayServer) : Prop :=
  s.openConnections ≤ s.maxConnections ∧ s.connectionCount ≤ s.maxConnections

/-- The loop accepts only after every task it spawned has incremented the counter. -/
def AcceptsCounted (s : GatewayServer) : ServerAction → Prop
  | .accept => ConnectionTask.spawned ∉ s.tasks
  | _ => True

/-- A connection is admitted while fewer than the limit are open, and a task starts while the
counter is below the limit. -/
def HasRoom (s : GatewayServer) : ServerAction → Prop
  | .accept => s.connectionCount < s.maxConnections → s.openConnections < s.maxConnections
  | .start _ => s.connectionCount < s.maxConnections
  | .stop | .handshake _ _ | .handlerEnds _ | .decrement _ => True

instance (s : GatewayServer) : Decidable s.WithinLimit :=
  inferInstanceAs (Decidable (_ ∧ _))

instance (s : GatewayServer) (a : ServerAction) : Decidable (s.AcceptsCounted a) :=
  match a with
  | .accept => inferInstanceAs (Decidable (_ ∉ _))
  | .stop | .start _ | .handshake _ _ | .handlerEnds _ | .decrement _ => isTrue trivial

def uncounted (s : GatewayServer) : Nat := s.tasks.countP (· = .spawned)

def lingering (s : GatewayServer) : Nat := s.tasks.countP (· = .ending)

variable {s t : GatewayServer} {i : Nat} {source target : ConnectionTask}

theorem countP_of_move (h : s.move i source target = some t) (p : ConnectionTask → Bool) :
    t.tasks.countP p + (p source).toNat = s.tasks.countP p + (p target).toNat := by
  rw [move, Option.ite_none_right_eq_some, Option.some.injEq] at h
  obtain ⟨hsource, rfl⟩ := h
  exact Slots.countP_set hsource target p

theorem numbers_of_move (h : s.move i source target = some t) :
    t.maxConnections = s.maxConnections ∧ t.connectionCount = s.connectionCount ∧
    t.openConnections + source.isOpen.toNat = s.openConnections + target.isOpen.toNat ∧
    t.uncounted + (decide (source = .spawned)).toNat =
      s.uncounted + (decide (target = .spawned)).toNat ∧
    t.lingering + (decide (source = .ending)).toNat =
      s.lingering + (decide (target = .ending)).toNat := by
  have hopen := countP_of_move h (·.isOpen)
  have huncounted := countP_of_move h (decide <| · = .spawned)
  have hlingering := countP_of_move h (decide <| · = .ending)
  rw [move, Option.ite_none_right_eq_some, Option.some.injEq] at h
  obtain ⟨_, rfl⟩ := h
  exact ⟨rfl, rfl, hopen, huncounted, hlingering⟩

def Effect (s t : GatewayServer) : ServerAction → Prop
  | .accept => t.connectionCount = s.connectionCount ∧ t.lingering = s.lingering ∧
    if s.maxConnections ≤ s.connectionCount then
      t.openConnections = s.openConnections ∧ t.uncounted = s.uncounted
    else t.openConnections = s.openConnections + 1 ∧ t.uncounted = s.uncounted + 1
  | .stop => t.connectionCount = s.connectionCount ∧ t.openConnections = s.openConnections ∧
    t.uncounted = s.uncounted ∧ t.lingering = s.lingering
  | .start _ => t.connectionCount = s.connectionCount + 1 ∧
    t.openConnections = s.openConnections ∧ t.uncounted + 1 = s.uncounted ∧
    t.lingering = s.lingering
  | .handshake _ true => t.connectionCount = s.connectionCount ∧
    t.openConnections = s.openConnections ∧ t.uncounted = s.uncounted ∧
    t.lingering = s.lingering
  | .handshake _ false | .handlerEnds _ => t.connectionCount = s.connectionCount ∧
    t.openConnections + 1 = s.openConnections ∧ t.uncounted = s.uncounted ∧
    t.lingering = s.lingering + 1
  | .decrement _ => t.connectionCount = s.connectionCount - 1 ∧
    t.openConnections = s.openConnections ∧ t.uncounted = s.uncounted ∧
    t.lingering + 1 = s.lingering

theorem effect_of_step {a : ServerAction} (hstep : s.step a = some t) :
    t.maxConnections = s.maxConnections ∧ s.Effect t a := by
  cases a with
  | accept =>
    simp only [step, Option.ite_none_right_eq_some] at hstep
    obtain ⟨_, hstep⟩ := hstep
    split at hstep
    next hfull =>
      cases hstep
      exact ⟨rfl, rfl, rfl, by rw [if_pos hfull]; exact ⟨rfl, rfl⟩⟩
    next hroom =>
      cases hstep
      simp [Effect, hroom, openConnections, uncounted, lingering, ConnectionTask.isOpen]
  | stop =>
    simp only [step, Option.ite_none_right_eq_some, Option.some.injEq] at hstep
    obtain ⟨_, rfl⟩ := hstep
    exact ⟨rfl, rfl, rfl, rfl, rfl⟩
  | start i =>
    obtain ⟨u, hmove, rfl⟩ := Option.map_eq_some_iff.mp hstep
    obtain ⟨hmax, hcount, hopen, hrest⟩ := numbers_of_move hmove
    exact ⟨hmax, congrArg (· + 1) hcount, Nat.succ.inj hopen, hrest⟩
  | handshake i ok =>
    obtain ⟨hmax, hcount, hopen, hrest⟩ := numbers_of_move hstep
    cases ok with
    | true => exact ⟨hmax, hcount, Nat.succ.inj hopen, hrest⟩
    | false => exact ⟨hmax, hcount, hopen, hrest⟩
  | handlerEnds i =>
    obtain ⟨hmax, hcount, hrest⟩ := numbers_of_move hstep
    exact ⟨hmax, hcount, hrest⟩
  | decrement i =>
    obtain ⟨u, hmove, rfl⟩ := Option.map_eq_some_iff.mp hstep
    obtain ⟨hmax, hcount, hrest⟩ := numbers_of_move hmove
    exact ⟨hmax, congrArg (· - 1) hcount, hrest⟩

theorem withinLimit_iff_hasRoom {a : ServerAction} (h : s.WithinLimit)
    (hstep : s.step a = some t) : t.WithinLimit ↔ s.HasRoom a := by
  obtain ⟨hmax, heffect⟩ := effect_of_step hstep
  unfold WithinLimit at h ⊢
  rw [hmax]
  cases a with
  | accept =>
    simp only [Effect, HasRoom] at heffect ⊢
    split at heffect <;> omega
  | handshake i ok =>
    cases ok <;> simp only [Effect, HasRoom, iff_true] at heffect ⊢ <;> omega
  | stop | start | handlerEnds | decrement =>
    simp only [Effect, HasRoom, iff_true] at heffect ⊢
    omega

theorem uncounted_le_openConnections (s : GatewayServer) : s.uncounted ≤ s.openConnections := by
  apply List.countP_mono_left
  intro task _ htask
  rw [of_decide_eq_true htask]
  rfl

/-- The counter misses the tasks that have not started and includes those that have ended. -/
def Balanced (s : GatewayServer) : Prop :=
  s.connectionCount + s.uncounted = s.openConnections + s.lingering

theorem balanced_of_step {a : ServerAction} (h : s.Balanced) (hstep : s.step a = some t) :
    t.Balanced := by
  obtain ⟨_, heffect⟩ := effect_of_step hstep
  have hle := s.uncounted_le_openConnections
  unfold Balanced at h ⊢
  cases a with
  | accept =>
    simp only [Effect] at heffect
    split at heffect <;> omega
  | handshake i ok => cases ok <;> simp only [Effect] at heffect <;> omega
  | stop | start | handlerEnds | decrement =>
    simp only [Effect] at heffect
    omega

/-- If the loop waits for the counter, all connections it admits fit within the limit. -/
theorem admitted_of_step {a : ServerAction}
    (h : s.connectionCount + s.uncounted ≤ s.maxConnections) (haccept : s.AcceptsCounted a)
    (hstep : s.step a = some t) : t.connectionCount + t.uncounted ≤ t.maxConnections := by
  obtain ⟨hmax, heffect⟩ := effect_of_step hstep
  rw [hmax]
  cases a with
  | accept =>
    have hzero : s.uncounted = 0 := by
      rw [uncounted, List.countP_eq_zero]
      intro task htask hspawned
      exact haccept (of_decide_eq_true hspawned ▸ htask)
    simp only [Effect] at heffect
    split at heffect <;> omega
  | handshake i ok => cases ok <;> simp only [Effect] at heffect <;> omega
  | stop | start | handlerEnds | decrement =>
    simp only [Effect] at heffect
    omega

/-- The tasks that were spawned can all run before anything else happens. -/
theorem exists_run_starts (s : GatewayServer) : ∃ starts t, run step s starts = some t ∧
    t.connectionCount = s.connectionCount + s.uncounted ∧
      t.maxConnections = s.maxConnections := by
  -- by induction on the number of tasks that have not been counted
  induction hn : s.uncounted generalizing s with
  | zero => exact ⟨[], s, rfl, rfl, rfl⟩
  | succ n ih =>
    have hpos : 0 < s.tasks.countP (· = .spawned) := by
      rw [← uncounted, hn]
      exact Nat.succ_pos n
    obtain ⟨task, hmem, htask⟩ := List.countP_pos_iff.mp hpos
    obtain rfl : task = .spawned := of_decide_eq_true htask
    obtain ⟨i, hspawned⟩ := List.mem_iff_getElem?.mp hmem
    obtain ⟨u, hstep⟩ : ∃ u, s.step (.start i) = some u := by
      rw [step, move, if_pos hspawned]
      exact ⟨_, rfl⟩
    obtain ⟨hmax, hcount, _, huncounted, _⟩ := effect_of_step hstep
    obtain ⟨starts, t, hrun, htotal, hlimit⟩ := ih u (by omega)
    refine ⟨.start i :: starts, t, run_cons_eq_some.mpr ⟨_, hstep, hrun⟩, ?_, hlimit.trans hmax⟩
    omega

/-- A run stays within the limit if the loop accepts only after the tasks it spawned have been
counted. A loop that accepts while the counter and the tasks it misses together have reached the
limit exceeds it as soon as these tasks run. Among single runs, those that stay within the limit
are the ones where every admission and every first step of a task finds room. -/
theorem within_limit_iff (maxConnections : Nat) (as : List ServerAction) :
    (Meets step AcceptsCounted (bind maxConnections) as →
      Always step WithinLimit (bind maxConnections) as) ∧
    (∀ s, run step (bind maxConnections) as = some s → s.running →
      s.connectionCount < maxConnections → maxConnections ≤ s.connectionCount + s.uncounted →
        ∃ starts, ¬Always step WithinLimit (bind maxConnections) (as ++ .accept :: starts)) ∧
    (Always step WithinLimit (bind maxConnections) as ↔
      Meets step HasRoom (bind maxConnections) as) := by
  refine ⟨?_, ?_, ?_⟩
  · intro hm
    refine hm.always (I := fun s => s.Balanced ∧
      s.connectionCount + s.uncounted ≤ s.maxConnections) ?_ ?_ ⟨rfl, Nat.zero_le _⟩
    · intro s a t h haccept hstep
      exact ⟨balanced_of_step h.1 hstep, admitted_of_step h.2 haccept hstep⟩
    · intro s h
      have hle := s.uncounted_le_openConnections
      unfold Balanced at h
      constructor <;> omega
  · intro s hrun hrunning hroom hreached
    have hmax : s.maxConnections = maxConnections :=
      run_invariant (I := fun s => s.maxConnections = maxConnections)
        (fun s a t h hstep => (effect_of_step hstep).1.trans h) rfl hrun
    have haccept : s.step .accept = some { s with tasks := s.tasks ++ [.spawned] } := by
      rw [step, if_pos hrunning, if_neg (by omega)]
    obtain ⟨hmax', hcount, _, hadmitted⟩ := effect_of_step haccept
    rw [if_neg (by omega)] at hadmitted
    obtain ⟨starts, t, hstarts, htotal, hlimit⟩ :=
      exists_run_starts { s with tasks := s.tasks ++ [.spawned] }
    refine ⟨starts, fun halways => ?_⟩
    have hwithin := always_iff.mp halways _ [] t (List.append_nil _).symm (by
      rw [run_append, hrun, Option.bind_some, run_cons, haccept]
      exact hstarts)
    unfold WithinLimit at hwithin
    omega
  · refine always_iff_meets (J := WithinLimit) (E := fun _ _ => True) (fun _ h => h) ?_ ?_ ?_ ?_
    · intro s a t h _ hstep
      exact withinLimit_iff_hasRoom h hstep
    · intro s a t _ _ _ h
      exact h
    · exact meets_of_forall fun _ _ => trivial
    · exact ⟨Nat.zero_le _, Nat.zero_le _⟩

/-- The second connection arrives after the first task has run, and is rejected. -/
theorem within_limit_of_prompt_task :
    Always step WithinLimit (bind 1) [.accept, .start 0, .accept, .handshake 0 true] :=
  (within_limit_iff 1 _).1 (by decide)

/-- With a limit of one, two connections arrive before the first task runs. -/
theorem two_admitted_before_counted :
    ¬Always step WithinLimit (bind 1) [.accept, .accept, .start 0, .start 1] := by
  have hrun : run step (bind 1) [.accept, .accept, .start 0, .start 1] =
      some ⟨1, 2, [.handshaking, .handshaking], true⟩ := rfl
  intro h
  have hlimit := always_iff.mp h _ [] _ (List.append_nil _).symm hrun
  revert hlimit
  decide

end GatewayServer

end EntitySync.Gateway
