import EntitySync.Client.LocalDb

/-!
# Redelivery to the local database

After a snapshot or a reconnect the server replays its log, so the client gets ops again that it
has applied before, cut into other batches. What reaches `applyOps` has been decoded but not
checked: the `op` of an entry can be any JavaScript value, and `applyOne` throws on one that it
does not know.
-/

namespace EntitySync.Client

open Json (Value)

/-- The `op` of a received entry. Of an object only the keys `Upsert` and `CrdtPatch` are read;
`json` is what `JSON.stringify` prints for it. -/
inductive OpValue where
  | text (s : String)
  | object (upsert : Option Value) (crdtPatch : Option (List UInt8)) (json : String)
  /-- A number, a Boolean, `null` or `undefined`, with what `String` prints for it. -/
  | primitive (shown : String)

structure ReceivedOp where
  lsn : PgLsn
  bucketId : BucketId
  entityType : String
  entityId : String
  op : OpValue

/-- `'Upsert' in op` on a value that is not an object. -/
def notAnObject (shown : String) : String :=
  "Cannot use 'in' operator to search for 'Upsert' in " ++ shown

def OpValue.variant : OpValue → Except String Op
  | .text s => if s = "Delete" then .ok .delete else .error (notAnObject s)
  | .object (some value) _ _ => .ok (.upsert value)
  | .object none (some patch) _ => .ok (.crdtPatch patch)
  | .object none none json => .error ("unrecognized Op variant: " ++ json)
  | .primitive shown => .error (notAnObject shown)

def OpValue.Unknown : OpValue → Prop
  | .text s => s ≠ "Delete"
  | .object upsert crdtPatch _ => upsert = none ∧ crdtPatch = none
  | .primitive _ => True

namespace ReceivedOp

def toBucketOp (r : ReceivedOp) : Except String BucketOp :=
  r.op.variant.map fun op => ⟨r.lsn, r.bucketId, r.entityType, r.entityId, op⟩

/-- `applyOne`: the table name is checked before the op. -/
def applyTo (db : LocalDb) (r : ReceivedOp) : Except String LocalDb :=
  if isIdentifier r.entityType then r.toBucketOp >>= applyOne db
  else .error ("refusing to apply op for unsafe table name '" ++ r.entityType ++ "'")

def Refused (r : ReceivedOp) : Prop := isIdentifier r.entityType = false ∨ r.op.Unknown

def Accepted (db : LocalDb) (r : ReceivedOp) : Prop := ¬r.Refused ∧ (db r.entityType).isSome

end ReceivedOp

open ReceivedOp

/-- The database after `applyOps`. The transaction is rolled back if an op throws. -/
def transaction (db : LocalDb) (ops : List ReceivedOp) : LocalDb :=
  match ops.foldlM applyTo db with
  | .ok db' => db'
  | .error _ => db

theorem variant_of_unknown {v : OpValue} (h : v.Unknown) : ∃ e, v.variant = .error e := by
  cases v with
  | text s => exact ⟨_, if_neg h⟩
  | object upsert crdtPatch json =>
    cases h.1
    cases h.2
    exact ⟨_, rfl⟩
  | primitive shown => exact ⟨_, rfl⟩

theorem variant_of_not_unknown {v : OpValue} (h : ¬v.Unknown) : ∃ op, v.variant = .ok op := by
  cases v with
  | text s => exact ⟨.delete, if_pos (not_not.mp h)⟩
  | object upsert crdtPatch json =>
    cases upsert with
    | some value => exact ⟨_, rfl⟩
    | none =>
      cases crdtPatch with
      | some patch => exact ⟨_, rfl⟩
      | none => exact absurd ⟨rfl, rfl⟩ h
  | primitive shown => exact absurd trivial h

theorem applyTo_of_refused {r : ReceivedOp} (h : r.Refused) (db : LocalDb) :
    ∃ e, r.applyTo db = .error e := by
  rw [applyTo]
  split
  next hname =>
    cases h with
    | inl hrejected => simp [hrejected] at hname
    | inr hunknown =>
      obtain ⟨e, he⟩ := variant_of_unknown hunknown
      exact ⟨e, by rw [toBucketOp, he]; rfl⟩
  · exact ⟨_, rfl⟩

theorem applyTo_of_not_refused {r : ReceivedOp} (h : ¬r.Refused) :
    ∃ op : BucketOp, op.entityType = r.entityType ∧ isIdentifier op.entityType = true ∧
      ∀ db, r.applyTo db = applyOne db op := by
  rw [Refused, not_or, Bool.not_eq_false] at h
  obtain ⟨op, hop⟩ := variant_of_not_unknown h.2
  refine ⟨⟨r.lsn, r.bucketId, r.entityType, r.entityId, op⟩, rfl, h.1, fun db => ?_⟩
  rw [applyTo, if_pos h.1, toBucketOp, hop]
  rfl

theorem exists_bucketOps {ops : List ReceivedOp} (h : ∀ r ∈ ops, ¬r.Refused) :
    ∃ known : List BucketOp, (∀ db, ops.foldlM applyTo db = applyOps db known) ∧
      ∀ db : LocalDb, (∀ r ∈ ops, (db r.entityType).isSome) → Applicable db known := by
  induction ops with
  | nil => exact ⟨[], fun _ => rfl, fun _ _ _ hop => by cases hop⟩
  | cons r ops ih =>
    rw [List.forall_mem_cons] at h
    obtain ⟨op, htype, hname, hop⟩ := applyTo_of_not_refused h.1
    obtain ⟨known, hknown, htables⟩ := ih h.2
    refine ⟨op :: known, fun db => ?_, fun db hdb => ?_⟩
    · rw [List.foldlM_cons, applyOps, List.foldlM_cons, hop db]
      simp only [hknown]
      rfl
    · rw [List.forall_mem_cons] at hdb
      refine List.forall_mem_cons.mpr ⟨⟨hname, ?_⟩, htables db hdb.2⟩
      rw [htype]
      exact hdb.1

theorem transaction_of_accepted {db : LocalDb} {ops : List ReceivedOp}
    (h : ∀ r ∈ ops, r.Accepted db) :
    ops.foldlM applyTo db = .ok (transaction db ops) ∧
      ∀ table, (transaction db ops table).isSome = (db table).isSome := by
  obtain ⟨known, hknown, htables⟩ := exists_bucketOps fun r hr => (h r hr).1
  obtain ⟨db', hdb'⟩ := applyOps_isOk_iff.mpr (htables db fun r hr => (h r hr).2)
  have hcommit : transaction db ops = db' := by rw [transaction, hknown, hdb']
  rw [hcommit, hknown, hdb']
  exact ⟨rfl, isSome_of_applyOps hdb'⟩

theorem transaction_append {db : LocalDb} {before ops : List ReceivedOp}
    (h : ∀ r ∈ before ++ ops, r.Accepted db) :
    transaction db (before ++ ops) = transaction (transaction db before) ops := by
  have hbefore := transaction_of_accepted fun r hr => h r (List.mem_append_left _ hr)
  have hops : ∀ r ∈ ops, r.Accepted (transaction db before) := by
    intro r hr
    rw [Accepted, hbefore.2]
    exact h r (List.mem_append_right _ hr)
  have hboth := (transaction_of_accepted h).1
  rw [List.foldlM_append, hbefore.1] at hboth
  exact Except.ok.inj (hboth.symm.trans (transaction_of_accepted hops).1)

/-- Accepted ops leave nothing to do for a second delivery of the last of them. -/
theorem transaction_suffix {db : LocalDb} {before ops : List ReceivedOp}
    (h : ∀ r ∈ before ++ ops, r.Accepted db) :
    transaction (transaction db (before ++ ops)) ops = transaction db (before ++ ops) := by
  obtain ⟨first, hfirst, _⟩ := exists_bucketOps fun r hr => (h r (List.mem_append_left _ hr)).1
  obtain ⟨rest, hrest, _⟩ := exists_bucketOps fun r hr => (h r (List.mem_append_right _ hr)).1
  have hall := (transaction_of_accepted h).1
  simp only [List.foldlM_append, hfirst, hrest] at hall
  have hlog : applyOps db (first ++ rest) = .ok (transaction db (before ++ ops)) := by
    rw [applyOps, List.foldlM_append]
    exact hall
  have hagain := applyOps_append_suffix hlog
  rw [transaction, hrest, hagain]

theorem transaction_flatten {db : LocalDb} {batches : List (List ReceivedOp)}
    (h : ∀ r ∈ batches.flatten, r.Accepted db) :
    batches.foldl transaction db = transaction db batches.flatten := by
  induction batches generalizing db with
  | nil => rfl
  | cons batch batches ih =>
    rw [List.flatten_cons] at h ⊢
    rw [transaction_append h, List.foldl_cons]
    apply ih
    intro r hr
    have hbatch := transaction_of_accepted fun r hr => h r (List.mem_append_left _ hr)
    rw [Accepted, hbatch.2]
    exact h r (List.mem_append_right _ hr)

theorem transaction_of_refused {db : LocalDb} {ops : List ReceivedOp}
    (h : ∃ r ∈ ops, r.Refused) : transaction db ops = db := by
  have hthrows : ∃ e, ops.foldlM applyTo db = .error e := by
    generalize db = current
    induction ops generalizing current with
    | nil => simp at h
    | cons r ops ih =>
      rw [List.foldlM_cons]
      cases hr : r.applyTo current with
      | error e => exact ⟨e, rfl⟩
      | ok next =>
        rw [List.exists_mem_cons_iff] at h
        cases h with
        | inl hrefused =>
          obtain ⟨e, he⟩ := applyTo_of_refused hrefused current
          rw [hr] at he
          cases he
        | inr hrest => exact ih hrest next
  obtain ⟨e, he⟩ := hthrows
  rw [transaction, he]

/-- Ops that are accepted may come again from any position on, and in batches of any size; a batch
with a refused op changes nothing. -/
theorem transaction_redelivery (db : LocalDb) (ops : List ReceivedOp) :
    ((∀ r ∈ ops, r.Accepted db) →
      (∀ k, transaction (transaction db ops) (ops.drop k) = transaction db ops) ∧
      ∀ batches : List (List ReceivedOp), batches.flatten = ops →
        batches.foldl transaction db = transaction db ops) ∧
    ((∃ r ∈ ops, r.Refused) → transaction db ops = db) := by
  refine ⟨fun h => ⟨fun k => ?_, ?_⟩, transaction_of_refused⟩
  · have hsplit : ops.take k ++ ops.drop k = ops := List.take_append_drop k ops
    have hall : ∀ r ∈ ops.take k ++ ops.drop k, r.Accepted db := by
      rw [hsplit]
      exact h
    have hsuffix := transaction_suffix hall
    rw [hsplit] at hsuffix
    exact hsuffix
  · rintro batches rfl
    exact transaction_flatten h

private def noteTables : LocalDb := fun table =>
  if table = "notes" ∨ table = "my-notes" then some fun _ => none else none

private def note (table : String) : ReceivedOp :=
  ⟨1, ⟨"user_notes"⟩, table, "a", .object (some (.string "milk")) none ""⟩

/-- An upsert, a patch of the same row and a delete of another one, redelivered from the patch
on. -/
theorem transaction_redelivery_notes :
    let patch : ReceivedOp := { note "notes" with op := .object none (some [1, 2]) "" }
    let delete : ReceivedOp := { note "notes" with entityId := "b", op := .text "Delete" }
    transaction (transaction noteTables [note "notes", patch, delete]) [patch, delete] =
      transaction noteTables [note "notes", patch, delete] := by
  intro patch delete
  refine ((transaction_redelivery noteTables [note "notes", patch, delete]).1 ?_).1 1
  simp [Accepted, Refused, OpValue.Unknown, patch, delete, note, noteTables,
    show isIdentifier "notes" = true by decide]

/-- One batch with an op for `my-notes` is rolled back as a whole. The other op is applied when it
comes again without the refused one, and also when it has a batch of its own. -/
theorem transaction_of_part :
    (∀ r ∈ [note "my-notes", note "notes"], (noteTables r.entityType).isSome) ∧
    transaction (transaction noteTables [note "my-notes", note "notes"])
        ([note "my-notes", note "notes"].drop 1) ≠
      transaction noteTables [note "my-notes", note "notes"] ∧
    [[note "notes"], [note "my-notes"]].foldl transaction noteTables ≠
      transaction noteTables [[note "notes"], [note "my-notes"]].flatten := by
  refine ⟨by decide, ?_, ?_⟩
  · intro h
    have hrow := congrArg (fun db => rowAt db "notes" "a") h
    revert hrow
    decide
  · intro h
    have hrow := congrArg (fun db => rowAt db "notes" "a") h
    revert hrow
    decide

end EntitySync.Client
