import EntitySync.Gateway.Write

/-!
# The scope of client writes

A `Write` is authorized by a query of its own, before the statement that changes the row. What the
row is in scope of at the statement depends on the changes committed in between.
-/

namespace EntitySync.Gateway

open StepSystem

section
variable (selects : Db → String → String → Bool)
variable (applyDelta : List UInt8 → List UInt8 → Except String (List UInt8))

namespace WriteTask

/-- The row is selected by the data query of one of the session's authorized assignments. -/
def InScope (task : WriteTask) (db : Db) : Prop :=
  ∃ a ∈ task.authorizedBuckets.values, ∃ query ∈ a.dataQueries.lookup task.entityType,
    selects db query task.entityId = true

def RowInScope (task : WriteTask) (db : Db) : Prop :=
  (db task.entityType task.entityId).isSome → task.InScope selects db

instance (task : WriteTask) : Decidable task.Pending :=
  match h : task.stage with
  | .authorized | .selected _ _ | .merged _ => isTrue (by simp [Pending, h])
  | .received | .finished _ => isFalse (by simp [Pending, h])

instance (task : WriteTask) (db : Db) : Decidable (task.InScope selects db) :=
  inferInstanceAs (Decidable (∃ a ∈ task.authorizedBuckets.values, _))

instance (task : WriteTask) (db : Db) : Decidable (task.RowInScope selects db) :=
  inferInstanceAs (Decidable (_ → _))

variable {selects applyDelta}

theorem inScope_of_dataQuery {task : WriteTask} {db : Db} {query : String}
    (hquery : task.dataQuery = some query) (h : selects db query task.entityId = true) :
    task.InScope selects db := by
  obtain ⟨a, ha, hlookup⟩ := List.exists_of_findSome?_eq_some hquery
  exact ⟨a, ha, query, hlookup, h⟩

end WriteTask

namespace Writers

/-- Every changed row was in the scope of its `Write` at that moment, and that `Write` was accepted:
one that is answered with an Error frame has changed nothing. -/
def ScopeKept (s : Writers) : Prop :=
  ∀ m ∈ s.modified, ∃ task ∈ s.tasks[m.task]?,
    task.stage = .finished .applied ∧ task.InScope selects m.db

/-- No committed change leaves a row out of scope while a `Write` whose check has passed for it is
still to change it. -/
def Undisturbed (s : Writers) : WriterAction → Prop
  | .receive _ _ _ _ => True
  | .advance i failed => ∀ t ∈ step selects applyDelta s (.advance i failed),
      ∀ j < s.tasks.length, j ≠ i → ∀ task ∈ s.tasks[j]?, task.Pending →
        task.RowInScope selects t.db
  | .external db => ∀ task ∈ s.tasks, task.Pending → task.RowInScope selects db

instance (s : Writers) : Decidable (s.ScopeKept selects) :=
  inferInstanceAs (Decidable (∀ m ∈ s.modified, _))

instance (s : Writers) (a : WriterAction) : Decidable (s.Undisturbed selects applyDelta a) :=
  match a with
  | .receive _ _ _ _ => isTrue trivial
  | .advance i failed =>
    inferInstanceAs (Decidable (∀ t ∈ step selects applyDelta s (.advance i failed), _))
  | .external _ => inferInstanceAs (Decidable (∀ task ∈ s.tasks, _))

structure ScopeHeld (s : Writers) : Prop where
  kept : s.ScopeKept selects
  pending : ∀ (j : Nat) (task : WriteTask), s.tasks[j]? = some task → task.Pending →
    task.RowInScope selects s.db

variable {selects applyDelta}

theorem scopeHeld_start (db : Db) : (start db).ScopeHeld selects where
  kept := by simp [ScopeKept, start]
  pending := by simp [start]

/-- A write that is not finished has changed nothing, so its next stage spoils no record. -/
theorem ScopeKept.setStage {s : Writers} (h : s.ScopeKept selects) {i : Nat} {task : WriteTask}
    (htask : s.tasks[i]? = some task) (hopen : ∀ outcome, task.stage ≠ .finished outcome)
    (stage : WriteStage) : (s.setStage i task stage).ScopeKept selects := by
  intro m hm
  obtain ⟨writer, hwriter, happlied, hscope⟩ := h m hm
  have hne : i ≠ m.task := by
    intro heq
    rw [← heq, htask, Option.mem_some_iff] at hwriter
    exact hopen _ (hwriter ▸ happlied)
  refine ⟨writer, ?_, happlied, hscope⟩
  rw [Writers.setStage, List.getElem?_set_ne hne]
  exact hwriter

theorem rowInScope_of_advances {task : WriteTask} {db : Db} {failed : Option String}
    {stage : WriteStage} (h : task.Advances selects applyDelta db failed stage none)
    (hscope : task.Pending → task.RowInScope selects db)
    (hpending : { task with stage := stage }.Pending) : task.RowInScope selects db := by
  cases h with
  | refuse houtcome hstage => exact hpending.elim
  | authorize hstage hquery hselects =>
    intro _
    exact WriteTask.inScope_of_dataQuery hquery hselects
  | select hstage hop hrow => exact hscope (by simp [WriteTask.Pending, hstage])
  | merge hstage hmerge => exact hscope (by simp [WriteTask.Pending, hstage])

theorem applied_of_advances {task : WriteTask} {db : Db} {failed : Option String}
    {stage : WriteStage} {f : Row → Option Row}
    (h : task.Advances selects applyDelta db failed stage (some f)) :
    task.Pending ∧ stage = .finished .applied := by
  cases h with
  | apply hstage hop => simp [WriteTask.Pending, hstage]
  | update hstage hfailed => simp [WriteTask.Pending, hstage]

theorem ScopeHeld.setStage {s : Writers} (h : s.ScopeHeld selects) {i : Nat} {task : WriteTask}
    {failed : Option String} {stage : WriteStage} (htask : s.tasks[i]? = some task)
    (hopen : ∀ outcome, task.stage ≠ .finished outcome)
    (hadvance : task.Advances selects applyDelta s.db failed stage none) :
    (s.setStage i task stage).ScopeHeld selects where
  kept := h.kept.setStage htask hopen stage
  pending := by
    intro j other hother hpending
    rw [Writers.setStage, List.getElem?_set] at hother
    split at hother
    · next hij =>
      split at hother <;> cases hother
      have hrow := rowInScope_of_advances hadvance (h.pending i task htask) hpending
      exact hrow
    · exact h.pending j other hother hpending

theorem ScopeKept.modify {s : Writers} (h : s.ScopeHeld selects) {i : Nat} {task : WriteTask}
    {failed : Option String} {stage : WriteStage} {f : Row → Option Row}
    (htask : s.tasks[i]? = some task) (hopen : ∀ outcome, task.stage ≠ .finished outcome)
    (hadvance : task.Advances selects applyDelta s.db failed stage (some f)) :
    ((s.modify i task f).setStage i task stage).ScopeKept selects := by
  have hdone := applied_of_advances hadvance
  have hlt : i < s.tasks.length := (List.getElem?_eq_some_iff.mp htask).1
  intro m hm
  simp only [Writers.setStage, Writers.modify] at hm ⊢
  split at hm
  · next hrow =>
    rcases List.mem_append.mp hm with hold | hnew
    · exact (h.kept.setStage htask hopen stage) m hold
    · rw [List.mem_singleton] at hnew
      subst hnew
      refine ⟨_, List.getElem?_set_self hlt, hdone.2, ?_⟩
      exact h.pending i task htask hdone.1 hrow
  · exact (h.kept.setStage htask hopen stage) m hm

theorem ScopeHeld.step {s t : Writers} {a : WriterAction} (h : s.ScopeHeld selects)
    (ha : s.Undisturbed selects applyDelta a) (ht : step selects applyDelta s a = some t) :
    t.ScopeHeld selects := by
  cases a with
  | receive session entityType entityId op =>
    obtain rfl := Option.some.inj ht
    constructor
    · intro m hm
      obtain ⟨task, htask, hrest⟩ := h.kept m hm
      exact ⟨task, List.getElem?_append_left (List.getElem?_eq_some_iff.mp htask).1 ▸ htask, hrest⟩
    · intro j task htask hpending
      rw [List.getElem?_append] at htask
      split at htask
      · exact h.pending j task htask hpending
      · obtain rfl := List.mem_singleton.mp (List.mem_of_getElem? htask)
        exact hpending.elim
  | external db =>
    obtain rfl := Option.some.inj ht
    exact ⟨h.kept, fun j task htask => ha task (List.mem_of_getElem? htask)⟩
  | advance i failed =>
    have hother := ha t ht
    cases handled_of_step ht with
    | stage htask hopen hadvance => exact h.setStage htask hopen hadvance
    | modify htask hopen hadvance =>
      refine ⟨ScopeKept.modify h htask hopen hadvance, ?_⟩
      intro j task hj hpending
      simp only [Writers.setStage, Writers.modify, List.getElem?_set] at hj
      split at hj
      · next hij =>
        -- The write that changed the row is finished.
        split at hj <;> cases hj
        simp [WriteTask.Pending, (applied_of_advances hadvance).2] at hpending
      · next hij =>
        exact hother j (List.getElem?_eq_some_iff.mp hj).1 (Ne.symm hij) task hj hpending

/-- In every run whose changes take no row out of the scope of a pending `Write`, every row that an
accepted `Write` changes is in its scope at that moment, and a refused one changes nothing. -/
theorem scopeKept_of_undisturbed (db : Db) (as : List WriterAction)
    (h : Meets (step selects applyDelta) (Undisturbed selects applyDelta) (start db) as) :
    Always (step selects applyDelta) (ScopeKept selects) (start db) as :=
  h.always (fun _ _ _ hI ha ht => ScopeHeld.step hI ha ht) (fun _ hI => hI.kept)
    (scopeHeld_start db)

end Writers

end

/-! A table with one entity, and a session of user 42. -/

private def ownerQuery : String := "SELECT * FROM entities WHERE owner_id = '42'"

private def ownerSession : Session where
  authorizedBuckets := AList.singleton ⟨"user_entities"⟩
    { bucketId := ⟨"user_entities"⟩, ruleId := "user_entities",
      parameters := AList.singleton "user_id" (.string "42"),
      dataQueries := AList.singleton "entities" ownerQuery }
  lastSeenLsn := ∅

private def entityOf (owner : String) : Db := fun table id =>
  if table = "entities" ∧ id = "a" then
    some ⟨.null, some [], AList.singleton "owner_id" (.string owner)⟩
  else none

private def selectsOwner : Db → String → String → Bool := fun db query id =>
  query == ownerQuery &&
    (db "entities" id).any fun row => row.columns.lookup "owner_id" = some (.string "42")

namespace Writers

theorem scopeKept_of_undisturbed_update :
    Always (step selectsOwner fun _ patch => .ok patch) (ScopeKept selectsOwner)
      (start (entityOf "42"))
      [.receive ownerSession "entities" "a" (.upsert .null), .advance 0 none,
        .external (entityOf "42"), .advance 0 none] :=
  scopeKept_of_undisturbed _ _ (by decide)

/-- The owner of a row changes between the scope check of a `Write` of user 42 and its statement:
the `Write` is accepted and deletes the row of user 7. -/
theorem transferred_row_deleted :
    ∃ t, run (step selectsOwner fun _ patch => .ok patch) (start (entityOf "42"))
        [.receive ownerSession "entities" "a" .delete, .advance 0 none,
          .external (entityOf "7"), .advance 0 none] = some t ∧
      t.db "entities" "a" = none ∧ ¬t.ScopeKept selectsOwner :=
  ⟨_, rfl, rfl, by decide⟩

end Writers

end EntitySync.Gateway
