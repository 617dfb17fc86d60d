import EntitySync.Gateway.Write
import EntitySync.Library.Merge

/-!
# Concurrent CRDT patches

A CRDT patch is merged into the state that its message selected, and the result overwrites the
row's state. With `apply_delta` a commutative, associative and idempotent merge, a message loses
nothing exactly if what it writes covers the state it overwrites.
-/

namespace EntitySync.Gateway

open StepSystem

section
variable (merge : List UInt8 → List UInt8 → List UInt8) (table id : String)

namespace WriteTask

def appliedPatch (task : WriteTask) : Option (List UInt8) :=
  if task.entityType = table ∧ task.entityId = id ∧ task.stage = .finished .applied then
    match task.op with
    | .crdtPatch patch => some patch
    | .upsert _ | .delete => none
  else none

/-- The message patches the row, and the state it selected is covered by the current one. -/
def Reads (current : List UInt8) (task : WriteTask) : Prop :=
  ∃ patch, task.op = .crdtPatch patch ∧
    match task.stage with
    | .selected existing p => p = patch ∧ ∃ e, existing = some e ∧ merge e current = current
    | .merged bytes => ∃ e, bytes = merge e patch ∧ merge e current = current
    | .received | .authorized | .finished _ => True

end WriteTask

def WriteStage.bytes? : WriteStage → Option (List UInt8)
  | .merged bytes => some bytes
  | .received | .authorized | .selected _ _ | .finished _ => none

namespace Writers

def crdtState (s : Writers) : Option (List UInt8) := (s.db table id).bind Row.crdtState

def appliedPatches (s : Writers) : List (List UInt8) :=
  s.tasks.filterMap (WriteTask.appliedPatch table id)

/-- The state of the row is its initial state merged with all patches applied to it. -/
def NothingLost (initial : List UInt8) (s : Writers) : Prop :=
  s.crdtState table id = some ((s.appliedPatches table id).foldl merge initial)

/-- Only patches are written to the row, and other changes leave its CRDT state alone. -/
def PatchesOnly (s : Writers) : WriterAction → Prop
  | .receive _ entityType entityId (.upsert _) | .receive _ entityType entityId .delete =>
    ¬(entityType = table ∧ entityId = id)
  | .receive _ _ _ (.crdtPatch _) => True
  | .external db => (db table id).bind Row.crdtState = s.crdtState table id
  | .advance _ _ => True

/-- The update of a message covers the state that the row has by then. -/
def Unconflicted (s : Writers) : WriterAction → Prop
  | .advance i none => ∀ task ∈ s.tasks[i]?, task.entityType = table ∧ task.entityId = id →
      ∀ bytes ∈ task.stage.bytes?, ∀ current ∈ s.crdtState table id, merge current bytes = bytes
  | .advance _ (some _) | .receive _ _ _ _ | .external _ => True

instance (s : Writers) (initial : List UInt8) : Decidable (s.NothingLost merge table id initial) :=
  inferInstanceAs (Decidable (_ = some _))

instance (s : Writers) (a : WriterAction) : Decidable (s.PatchesOnly table id a) :=
  match a with
  | .receive _ entityType entityId (.upsert _) | .receive _ entityType entityId .delete =>
    inferInstanceAs (Decidable (¬(entityType = table ∧ entityId = id)))
  | .external _ => inferInstanceAs (Decidable (_ = s.crdtState table id))
  | .receive _ _ _ (.crdtPatch _) | .advance _ _ => isTrue trivial

instance (s : Writers) (a : WriterAction) : Decidable (s.Unconflicted merge table id a) :=
  match a with
  | .advance i none => inferInstanceAs (Decidable (∀ task ∈ s.tasks[i]?, _))
  | .advance _ (some _) | .receive _ _ _ _ | .external _ => isTrue trivial

/-- Nothing is lost, and every message for the row has selected a state that is still covered. -/
structure Merging (initial : List UInt8) (s : Writers) : Prop where
  nothingLost : s.NothingLost merge table id initial
  reads : ∀ (j : Nat) (task : WriteTask), s.tasks[j]? = some task →
    task.entityType = table ∧ task.entityId = id →
      ∀ current, s.crdtState table id = some current → task.Reads merge current

end Writers

end

namespace WriteTask

variable {merge : List UInt8 → List UInt8 → List UInt8} {table id : String}

theorem appliedPatch_of_not_applied {task : WriteTask} (h : task.stage ≠ .finished .applied) :
    task.appliedPatch table id = none := by
  simp [appliedPatch, h]

theorem Reads.mono [Std.Associative merge] {current next : List UInt8} {task : WriteTask}
    (h : task.Reads merge current) (hle : merge current next = next) : task.Reads merge next := by
  obtain ⟨patch, hop, hstage⟩ := h
  refine ⟨patch, hop, ?_⟩
  cases hs : task.stage with
  | received => trivial
  | authorized => trivial
  | finished outcome => trivial
  | selected existing p =>
    rw [hs] at hstage
    obtain ⟨hp, e, he, hcover⟩ := hstage
    exact ⟨hp, e, he, Merge.covers_trans hcover hle⟩
  | merged bytes =>
    rw [hs] at hstage
    obtain ⟨e, he, hcover⟩ := hstage
    exact ⟨e, he, Merge.covers_trans hcover hle⟩

section
variable {selects : Db → String → String → Bool}
variable {applyDelta : List UInt8 → List UInt8 → Except String (List UInt8)}

theorem stage_of_advances {task : WriteTask} {db : Db} {failed : Option String}
    {stage : WriteStage} (h : task.Advances selects applyDelta db failed stage none) :
    stage ≠ .finished .applied := by
  cases h with
  | refuse houtcome _ => simpa using houtcome
  | authorize => simp
  | select => simp
  | merge => simp

theorem bytes_of_advances {task : WriteTask} {db : Db} {stage : WriteStage}
    (h : task.Advances selects applyDelta db none stage none) : task.stage.bytes? = none := by
  cases h with
  | refuse _ hstage =>
    cases hs : task.stage with
    | merged bytes => exact absurd rfl (hstage bytes hs)
    | received => rfl
    | authorized => rfl
    | selected existing patch => rfl
    | finished outcome => rfl
  | authorize hstage => simp [WriteStage.bytes?, hstage]
  | select hstage => simp [WriteStage.bytes?, hstage]
  | merge hstage => simp [WriteStage.bytes?, hstage]

theorem Reads.advance [Std.IdempotentOp merge] {task : WriteTask} {db : Db}
    {failed : Option String} {stage : WriteStage} {current : List UInt8}
    (happly : ∀ existing patch, applyDelta existing patch = .ok (merge existing patch))
    (h : task.Reads merge current)
    (hcurrent : (db task.entityType task.entityId).bind Row.crdtState = some current)
    (hadvance : task.Advances selects applyDelta db failed stage none) :
    { task with stage := stage }.Reads merge current := by
  obtain ⟨patch, hop, hreads⟩ := h
  refine ⟨patch, hop, ?_⟩
  cases hadvance with
  | refuse => trivial
  | authorize => trivial
  | select hstage hpatch hrow =>
    have hp := hop.symm.trans hpatch
    cases hp
    exact ⟨rfl, current, hrow.symm.trans hcurrent, Std.IdempotentOp.idempotent current⟩
  | merge hstage hmerge =>
    rw [hstage] at hreads
    obtain ⟨rfl, e, rfl, hcover⟩ := hreads
    rw [happly] at hmerge
    exact ⟨e, (Except.ok.inj hmerge).symm, hcover⟩

end

end WriteTask

namespace Writers

variable {merge : List UInt8 → List UInt8 → List UInt8} {table id : String}
variable {selects : Db → String → String → Bool}
variable {applyDelta : List UInt8 → List UInt8 → Except String (List UInt8)}

@[simp] theorem crdtState_setStage (s : Writers) (i : Nat) (task : WriteTask)
    (stage : WriteStage) : (s.setStage i task stage).crdtState table id = s.crdtState table id :=
  rfl

theorem crdtState_modify_of_ne {s : Writers} {i : Nat} {task : WriteTask} {f : Row → Option Row}
    (h : ¬(task.entityType = table ∧ task.entityId = id)) :
    (s.modify i task f).crdtState table id = s.crdtState table id := by
  have hne : ¬(table = task.entityType ∧ id = task.entityId) := by
    rintro ⟨htable, hid⟩
    exact h ⟨htable.symm, hid.symm⟩
  simp [crdtState, modify, Db.rewrite, hne]

theorem crdtState_modify {s : Writers} {i : Nat} {task : WriteTask} {current bytes : List UInt8}
    (h : task.entityType = table ∧ task.entityId = id)
    (hrow : s.crdtState table id = some current) :
    (s.modify i task fun row => some { row with crdtState := some bytes }).crdtState table id =
      some bytes := by
  obtain ⟨row, hlookup, _⟩ := Option.bind_eq_some_iff.mp hrow
  simp [crdtState, modify, Db.rewrite, h, hlookup]

theorem appliedPatches_setStage {s : Writers} {i : Nat} {task : WriteTask} {stage : WriteStage}
    (htask : s.tasks[i]? = some task) (hopen : ∀ outcome, task.stage ≠ .finished outcome)
    (h : { task with stage := stage }.appliedPatch table id = none) :
    (s.setStage i task stage).appliedPatches table id = s.appliedPatches table id :=
  List.filterMap_set_of_none htask (WriteTask.appliedPatch_of_not_applied (hopen _)) h

theorem appliedPatches_update {s : Writers} {i : Nat} {task : WriteTask} {f : Row → Option Row}
    {patch : List UInt8} (htask : s.tasks[i]? = some task)
    (hopen : ∀ outcome, task.stage ≠ .finished outcome)
    (hrow : task.entityType = table ∧ task.entityId = id) (hop : task.op = .crdtPatch patch) :
    (((s.modify i task f).setStage i task (.finished .applied)).appliedPatches table id).Perm
      (s.appliedPatches table id ++ [patch]) :=
  List.filterMap_set_perm htask (WriteTask.appliedPatch_of_not_applied (hopen _))
    (by simp [WriteTask.appliedPatch, hrow, hop])

section
variable [Std.Commutative merge] [Std.Associative merge] {initial : List UInt8}

theorem nothingLost_update_iff {s : Writers} {i : Nat} {task : WriteTask} {bytes : List UInt8}
    (h : s.Merging merge table id initial) (htask : s.tasks[i]? = some task)
    (hrow : task.entityType = table ∧ task.entityId = id) (hstage : task.stage = .merged bytes) :
    ((s.modify i task fun row => some { row with crdtState := some bytes }).setStage i task
        (.finished .applied)).NothingLost merge table id initial ↔
      ∀ current ∈ s.crdtState table id, merge current bytes = bytes := by
  have hcurrent : s.crdtState table id =
      some ((s.appliedPatches table id).foldl merge initial) := h.nothingLost
  obtain ⟨patch, hop, hreads⟩ := h.reads i task htask hrow _ hcurrent
  rw [hstage] at hreads
  obtain ⟨e, rfl, hcover⟩ := hreads
  have hpatches := appliedPatches_update (f := fun row => some { row with
    crdtState := some (merge e patch) }) htask (by simp [hstage]) hrow hop
  rw [NothingLost, crdtState_setStage, crdtState_modify hrow hcurrent,
    hpatches.foldl_eq initial, List.foldl_append, Option.some.injEq]
  simp only [hcurrent, Option.mem_some_iff, forall_eq', List.foldl_cons, List.foldl_nil]
  exact Merge.merge_old_eq_iff hcover

/-- Under the invariant, a step loses nothing exactly if it does not overwrite more than it
covers. -/
theorem Merging.nothingLost_iff {s t : Writers} {a : WriterAction}
    (h : s.Merging merge table id initial) (ha : s.PatchesOnly table id a)
    (ht : step selects applyDelta s a = some t) :
    t.NothingLost merge table id initial ↔ s.Unconflicted merge table id a := by
  have hlost := h.nothingLost
  cases a with
  | receive session entityType entityId op =>
    obtain rfl := Option.some.inj ht
    refine iff_of_true ?_ trivial
    simpa [NothingLost, crdtState, appliedPatches, WriteTask.appliedPatch] using hlost
  | external db =>
    obtain rfl := Option.some.inj ht
    refine iff_of_true ?_ trivial
    exact ha.trans hlost
  | advance i failed =>
    cases handled_of_step ht with
    | @stage task stage htask hopen hadvance =>
      have hpatches : (s.setStage i task stage).appliedPatches table id =
          s.appliedPatches table id :=
        appliedPatches_setStage htask hopen
          (WriteTask.appliedPatch_of_not_applied (WriteTask.stage_of_advances hadvance))
      refine iff_of_true ?_ ?_
      · rw [NothingLost, crdtState_setStage, hpatches]
        exact hlost
      · cases failed with
        | some error => trivial
        | none =>
          intro other hother _ bytes hbytes
          rw [htask, Option.mem_some_iff] at hother
          subst hother
          rw [WriteTask.bytes_of_advances hadvance] at hbytes
          cases hbytes
    | @modify task stage f htask hopen hadvance =>
      by_cases hrow : task.entityType = table ∧ task.entityId = id
      · obtain ⟨patch, hop, _⟩ := h.reads i task htask hrow _ hlost
        cases hadvance with
        | apply hstage hother => exact absurd hop (hother patch)
        | update hstage hfailed =>
          subst hfailed
          rw [nothingLost_update_iff h htask hrow hstage]
          simp [Unconflicted, htask, hrow, hstage, WriteStage.bytes?]
      · have hpatches : ((s.modify i task f).setStage i task stage).appliedPatches table id =
            s.appliedPatches table id :=
          appliedPatches_setStage htask hopen
            (by rw [WriteTask.appliedPatch, if_neg fun hon => hrow ⟨hon.1, hon.2.1⟩])
        refine iff_of_true ?_ ?_
        · rw [NothingLost, crdtState_setStage, crdtState_modify_of_ne hrow, hpatches]
          exact hlost
        · cases failed with
          | some error => trivial
          | none =>
            intro other hother hon
            rw [htask, Option.mem_some_iff] at hother
            exact absurd (hother ▸ hon) hrow

theorem Merging.reads_modify {s : Writers} {i : Nat} {task : WriteTask} {failed : Option String}
    {stage : WriteStage} {f : Row → Option Row} (h : s.Merging merge table id initial)
    (htask : s.tasks[i]? = some task)
    (hadvance : task.Advances selects applyDelta s.db failed stage (some f))
    (hlost : ((s.modify i task f).setStage i task stage).NothingLost merge table id initial)
    {other : WriteTask} {current next : List UInt8} (hcurrent : s.crdtState table id = some current)
    (hnext : (s.modify i task f).crdtState table id = some next)
    (hreads : other.Reads merge current) : other.Reads merge next := by
  by_cases hrow : task.entityType = table ∧ task.entityId = id
  · obtain ⟨patch, hop, _⟩ := h.reads i task htask hrow _ hcurrent
    cases hadvance with
    | apply hstage hother => exact absurd hop (hother patch)
    | update hstage hfailed =>
      rw [crdtState_modify hrow hcurrent, Option.some.injEq] at hnext
      subst hnext
      exact hreads.mono ((nothingLost_update_iff h htask hrow hstage).mp hlost current hcurrent)
  · rw [crdtState_modify_of_ne hrow, hcurrent, Option.some.injEq] at hnext
    exact hnext ▸ hreads

theorem Merging.step [Std.IdempotentOp merge] {s t : Writers} {a : WriterAction}
    (happly : ∀ existing patch, applyDelta existing patch = .ok (merge existing patch))
    (h : s.Merging merge table id initial) (ha : s.PatchesOnly table id a)
    (ht : step selects applyDelta s a = some t) (hlost : t.NothingLost merge table id initial) :
    t.Merging merge table id initial := by
  refine ⟨hlost, ?_⟩
  intro j task htask hrow next hnext
  cases a with
  | receive session entityType entityId op =>
    obtain rfl := Option.some.inj ht
    rw [List.getElem?_append] at htask
    split at htask
    · exact h.reads j task htask hrow next hnext
    · obtain rfl := List.mem_singleton.mp (List.mem_of_getElem? htask)
      cases op with
      | upsert value => exact absurd hrow ha
      | delete => exact absurd hrow ha
      | crdtPatch patch => exact ⟨patch, rfl, trivial⟩
  | external db =>
    obtain rfl := Option.some.inj ht
    exact h.reads j task htask hrow next (ha.symm.trans hnext)
  | advance i failed =>
    cases handled_of_step ht with
    | @stage advanced stage hadvanced hopen hadvance =>
      rw [Writers.setStage, List.getElem?_set] at htask
      split at htask
      · next hij =>
        split at htask <;> cases htask
        have hreads := h.reads i advanced hadvanced hrow next hnext
        rw [crdtState_setStage, crdtState, ← hrow.1, ← hrow.2] at hnext
        exact hreads.advance happly hnext hadvance
      · exact h.reads j task htask hrow next hnext
    | @modify advanced stage f hadvanced hopen hadvance =>
      have hcurrent := h.nothingLost
      simp only [Writers.setStage, Writers.modify, List.getElem?_set] at htask
      split at htask
      · next hij =>
        split at htask <;> cases htask
        obtain ⟨patch, hop, _⟩ := h.reads i advanced hadvanced hrow _ hcurrent
        cases hadvance with
        | apply => exact ⟨patch, hop, trivial⟩
        | update => exact ⟨patch, hop, trivial⟩
      · exact h.reads_modify hadvanced hadvance hlost hcurrent hnext
          (h.reads j task htask hrow _ hcurrent)

/-- Any number of sessions patch a row at the same time, and `apply_delta` is a commutative,
associative and idempotent merge. The row's state always is the merge of its initial state with all
patches applied so far exactly if every update covers the state that it overwrites. -/
theorem nothingLost_iff_unconflicted [Std.IdempotentOp merge]
    (happly : ∀ existing patch, applyDelta existing patch = .ok (merge existing patch))
    (db : Db) (hinitial : (db table id).bind Row.crdtState = some initial) (as : List WriterAction)
    (hpatches : Meets (Writers.step selects applyDelta) (PatchesOnly table id) (start db) as) :
    Always (Writers.step selects applyDelta) (NothingLost merge table id initial) (start db) as ↔
      Meets (Writers.step selects applyDelta) (Unconflicted merge table id) (start db) as :=
  always_iff_meets (J := Merging merge table id initial) (fun _ h => h.nothingLost)
    (fun _ _ _ h ha ht => h.nothingLost_iff ha ht)
    (fun _ _ _ h ha ht hlost => h.step happly ha ht hlost)
    hpatches ⟨hinitial, by simp [start]⟩

end

end Writers

/-! Grow-only bit sets as states and deltas, and a row that two sessions may write. -/

private def orBytes : List UInt8 → List UInt8 → List UInt8
  | [], ys => ys
  | x :: xs, [] => x :: xs
  | x :: xs, y :: ys => (x ||| y) :: orBytes xs ys

private instance : Std.Commutative orBytes where
  comm xs ys := by
    induction xs generalizing ys with
    | nil => cases ys <;> rfl
    | cons x xs ih =>
      cases ys with
      | nil => rfl
      | cons y ys => simp [orBytes, ih ys, UInt8.or_comm]

private instance : Std.Associative orBytes where
  assoc xs ys zs := by
    induction xs generalizing ys zs with
    | nil => rfl
    | cons x xs ih =>
      cases ys with
      | nil => cases zs <;> rfl
      | cons y ys =>
        cases zs with
        | nil => rfl
        | cons z zs => simp [orBytes, ih ys zs, UInt8.or_assoc]

private instance : Std.IdempotentOp orBytes where
  idempotent xs := by
    induction xs with
    | nil => rfl
    | cons x xs ih => simp [orBytes, ih]

private def patchSession : Session where
  authorizedBuckets := AList.singleton ⟨"docs"⟩
    { bucketId := ⟨"docs"⟩, ruleId := "docs", parameters := ∅,
      dataQueries := AList.singleton "docs" "SELECT * FROM docs" }
  lastSeenLsn := ∅

private def emptyDoc : Db := fun table id =>
  if table = "docs" ∧ id = "a" then some ⟨.null, some [], ∅⟩ else none

private def selectsRow : Db → String → String → Bool := fun db _ id => (db "docs" id).isSome

private def receivePatch (patch : List UInt8) : WriterAction :=
  .receive patchSession "docs" "a" (.crdtPatch patch)

namespace Writers

theorem nothingLost_iff_unconflicted_in_turn :
    Always (step selectsRow fun existing patch => .ok (orBytes existing patch))
      (NothingLost orBytes "docs" "a" []) (start emptyDoc)
      [receivePatch [1], receivePatch [2], .advance 0 none, .advance 0 none, .advance 0 none,
        .advance 0 none, .advance 1 none, .advance 1 none, .advance 1 none, .advance 1 none] :=
  (nothingLost_iff_unconflicted (fun _ _ => rfl) emptyDoc rfl _ (by decide)).mpr (by decide)

/-- Two sessions select the state of the row before either updates it: the second update overwrites
the first patch. -/
theorem concurrent_patch_lost :
    ∃ t, run (step selectsRow fun existing patch => .ok (orBytes existing patch)) (start emptyDoc)
        [receivePatch [1], receivePatch [2], .advance 0 none, .advance 0 none, .advance 1 none,
          .advance 1 none, .advance 0 none, .advance 0 none, .advance 1 none, .advance 1 none] =
          some t ∧
      t.appliedPatches "docs" "a" = [[1], [2]] ∧ t.crdtState "docs" "a" = some [2] ∧
      ¬t.NothingLost orBytes "docs" "a" [] :=
  ⟨_, rfl, rfl, rfl, by decide⟩

end Writers

end EntitySync.Gateway
