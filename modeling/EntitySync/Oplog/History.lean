import EntitySync.Oplog.Lifetime

/-!
# Transaction histories of the op log

A history is a list of committed write transactions. It alone determines what a scan yields: for
every position, the last op appended there, unless a later compaction removed the entry.
-/

namespace EntitySync.Oplog

structure StoreId where
  id : BucketId
  fits : FitsPrefix id

/-- A committed write transaction, with the wall-clock second it read. -/
inductive Transaction where
  | append (b : StoreId) (lsn : PgLsn) (op : BucketOp) (now : UInt64)
  | compact (now : UInt64)

def Transaction.toStep : Transaction → Step
  | .append b lsn op now => .append b.id lsn op now true
  | .compact now => .compact now true

def execute (codec : Codec) (log : BucketOpLog) (history : List Transaction) : BucketOpLog :=
  run codec log (history.map Transaction.toStep)

def lastAppend (history : List Transaction) (b : BucketId) (l : PgLsn) : Option BucketOp :=
  history.foldl (fun last tx =>
    match tx with
    | .append c lsn op _ => if c.id = b ∧ lsn = l then some op else last
    | .compact _ => last) none

/-- The envelope that the history leaves at `b` and `l`: an append there writes it, and a
compaction drops it when its second lies before the cutoff. -/
def retained (ttl : Duration) (history : List Transaction) (b : BucketId) (l : PgLsn) :
    Option StoredOp :=
  history.foldl (fun entry tx =>
    match tx with
    | .append c lsn op now => if c.id = b ∧ lsn = l then some ⟨op, now⟩ else entry
    | .compact now =>
      entry.filter fun stored =>
        !decide (stored.appendedAtUnixSecs < saturatingSub now ttl.secs)) none

private theorem compactionTtl_apply (codec : Codec) (log : BucketOpLog) (tx : Transaction) :
    (tx.toStep.apply codec log).compactionTtl = log.compactionTtl := by
  cases tx with
  | append b lsn op now => rfl
  | compact now => exact BucketOpLog.compactionTtl_compact codec log now

/-- Every history keeps the tables in step with partitions that hold what it retains. -/
private theorem execute_represents (codec : Codec) (ttl : Duration)
    (history : List Transaction) :
    ∃ ps : Partitions,
      Represents codec (execute codec (BucketOpLog.empty ttl) history) ps ∧
      (execute codec (BucketOpLog.empty ttl) history).compactionTtl = ttl ∧
      ∀ b l, (ps b)[l]? = retained ttl history b l := by
  induction history using List.reverseRecOn with
  | nil => exact ⟨Partitions.empty, represents_empty ttl, rfl, fun b l => rfl⟩
  | append_singleton history tx ih =>
    obtain ⟨ps, hrep, httl, hget⟩ := ih
    have hexec : execute codec (BucketOpLog.empty ttl) (history ++ [tx]) =
        tx.toStep.apply codec (execute codec (BucketOpLog.empty ttl) history) := by
      simp [execute, run]
    rw [hexec, compactionTtl_apply]
    cases tx with
    | append b lsn op now =>
      refine ⟨ps.append now b.id lsn op, hrep.append now b.fits lsn op, httl, ?_⟩
      intro c l
      have hiff : (c = b.id ∧ l = lsn) ↔ (b.id = c ∧ lsn = l) := by
        constructor <;> exact fun h => ⟨h.1.symm, h.2.symm⟩
      rw [Partitions.getElem?_append, hget]
      simp [retained, hiff]
    | compact now =>
      refine ⟨_, hrep.compact now, httl, ?_⟩
      intro c l
      rw [Partitions.getElem?_compact, hget, BucketOpLog.compactionCutoff, httl]
      simp [retained]

private theorem lastAppend_of_retained (ttl : Duration) (history : List Transaction)
    (b : BucketId) (l : PgLsn) {stored : StoredOp}
    (h : retained ttl history b l = some stored) : lastAppend history b l = some stored.op := by
  induction history using List.reverseRecOn generalizing stored with
  | nil => simp [retained] at h
  | append_singleton history tx ih =>
    rw [retained, List.foldl_concat] at h
    rw [lastAppend, List.foldl_concat]
    cases tx with
    | append c lsn op now =>
      by_cases hat : c.id = b ∧ lsn = l
      · simp only [if_pos hat, Option.some.injEq] at h ⊢
        rw [← h]
      · simp only [if_neg hat] at h ⊢
        exact ih h
    | compact now => exact ih (Option.filter_eq_some_iff.mp h).1

private theorem mem_of_lastAppend {history : List Transaction} {b : StoreId} {l : PgLsn}
    {op : BucketOp} (h : lastAppend history b.id l = some op) :
    ∃ now, Transaction.append b l op now ∈ history := by
  induction history using List.reverseRecOn with
  | nil => simp [lastAppend] at h
  | append_singleton history tx ih =>
    rw [lastAppend, List.foldl_concat] at h
    have hearlier (hlast : lastAppend history b.id l = some op) :
        ∃ now, Transaction.append b l op now ∈ history ++ [tx] := by
      obtain ⟨now, hmem⟩ := ih hlast
      exact ⟨now, List.mem_append_left _ hmem⟩
    cases tx with
    | append c lsn op' now =>
      by_cases hat : c.id = b.id ∧ lsn = l
      · simp only [if_pos hat, Option.some.injEq] at h
        have hcb : c = b := by
          cases c
          cases b
          simpa using hat.1
        rw [← h, ← hat.2, ← hcb]
        exact ⟨now, List.mem_append_right _ (List.mem_singleton_self _)⟩
      · simp only [if_neg hat] at h
        exact hearlier h
    | compact now => exact hearlier h

/-- Range scans are exact and isolated: after any history, `drain_since` yields the retained
entries of the bucket from `fromLsn` up to, but excluding, `u64::MAX`, in LSN order, each with
the op last appended there; every op it yields was appended under this very bucket id. -/
theorem drainSince_exact (codec : Codec) (ttl : Duration) (history : List Transaction)
    (b : StoreId) (fromLsn : PgLsn) :
    ∃ entries : List (PgLsn × BucketOp),
      (execute codec (BucketOpLog.empty ttl) history).drainSince codec b.id fromLsn =
        .ok (entries.map Prod.snd) ∧
      entries.Pairwise (fun x y => x.1 < y.1) ∧
      (∀ l op, (l, op) ∈ entries ↔
        fromLsn ≤ l ∧ l < PgLsn.max ∧ (retained ttl history b.id l).isSome ∧
          lastAppend history b.id l = some op) ∧
      ∀ e ∈ entries, ∃ now, Transaction.append b e.1 e.2 now ∈ history := by
  obtain ⟨ps, hrep, _, hget⟩ := execute_represents codec ttl history
  have hmem (l : PgLsn) (op : BucketOp) :
      (l, op) ∈ (ps.since b.id fromLsn).map (fun e => (e.1, e.2.op)) ↔
        fromLsn ≤ l ∧ l < PgLsn.max ∧ (retained ttl history b.id l).isSome ∧
          lastAppend history b.id l = some op := by
    rw [List.mem_map]
    constructor
    · intro h
      obtain ⟨⟨l', stored⟩, hin, heq⟩ := h
      obtain ⟨rfl, rfl⟩ := Prod.mk.inj heq
      have hsince := Partitions.mem_since.mp hin
      have hret : retained ttl history b.id l' = some stored := by rw [← hget, hsince.1]
      exact ⟨hsince.2.1, hsince.2.2, by rw [hret]; rfl, lastAppend_of_retained ttl _ _ _ hret⟩
    · intro h
      obtain ⟨hlow, hhigh, hsome, hlast⟩ := h
      obtain ⟨stored, hret⟩ := Option.isSome_iff_exists.mp hsome
      have hop : stored.op = op := by
        have h := lastAppend_of_retained ttl _ _ _ hret
        rw [hlast] at h
        exact (Option.some.inj h).symm
      refine ⟨(l, stored), Partitions.mem_since.mpr ⟨?_, hlow, hhigh⟩, by rw [hop]⟩
      rw [hget, hret]
  refine ⟨(ps.since b.id fromLsn).map fun e => (e.1, e.2.op), ?_, ?_, hmem, ?_⟩
  · rw [hrep.drainSince b.fits, Partitions.drainSince, List.map_map]
    rfl
  · rw [List.pairwise_map]
    exact ps.since_sorted b.id fromLsn
  · intro e he
    exact mem_of_lastAppend ((hmem e.1 e.2).mp he).2.2.2

end EntitySync.Oplog
