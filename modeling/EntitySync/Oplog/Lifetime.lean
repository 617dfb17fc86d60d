import EntitySync.Oplog.Partition
import Mathlib.Data.List.Induction

/-!
# Runs of the op log

A run mixes appends to any buckets, compactions and reopenings of the file. A write transaction
commits as a whole or is lost. The checksum of a bucket folds the committed appends to it, and every
entry in the table stems from one of them.
-/

namespace EntitySync.Oplog

open Std (TreeMap)

/-- `BucketOpLog::open` on a file that has the tables. -/
def BucketOpLog.reopen (log : BucketOpLog) (compactionTtl : Duration) : BucketOpLog :=
  { log with compactionTtl := compactionTtl }

/-- A step of a run. The second of an append is read before its transaction begins, so it need not
agree with the order of the commits. -/
inductive Step where
  | append (b : BucketId) (lsn : PgLsn) (op : BucketOp) (now : UInt64) (committed : Bool)
  | compact (now : UInt64) (committed : Bool)
  | reopen (compactionTtl : Duration)

def Step.apply (codec : Codec) (log : BucketOpLog) : Step → BucketOpLog
  | .append b lsn op now true => log.append codec now b lsn op
  | .compact now true => (log.compact codec now).2
  | .append _ _ _ _ false | .compact _ false => log
  | .reopen compactionTtl => log.reopen compactionTtl

def run (codec : Codec) (log : BucketOpLog) (steps : List Step) : BucketOpLog :=
  steps.foldl (Step.apply codec) log

def Step.commits (b : BucketId) : Step → Option (PgLsn × StoredOp)
  | .append c lsn op now true => if c = b then some (lsn, ⟨op, now⟩) else none
  | .append _ _ _ _ false | .compact _ _ | .reopen _ => none

def committed (b : BucketId) (steps : List Step) : List (PgLsn × StoredOp) :=
  steps.filterMap (Step.commits b)

def payloads (codec : Codec) (b : BucketId) (steps : List Step) : List Bytes :=
  (committed b steps).map fun e => codec.toVec e.2

variable (codec : Codec)

theorem checksum_append (log : BucketOpLog) (now : UInt64) (b c : BucketId) (lsn : PgLsn)
    (op : BucketOp) :
    (log.append codec now c lsn op).checksum b =
      if c = b then foldChecksum (log.checksum b) (codec.toVec ⟨op, now⟩) else log.checksum b := by
  rw [BucketOpLog.checksum, BucketOpLog.append, Std.TreeMap.getElem?_insert]
  by_cases hcb : c = b
  · subst hcb
    simp [BucketOpLog.checksum]
  · have hne : compare (idBytes c) (idBytes b) ≠ .eq := by
      intro heq
      exact hcb (idBytes_injective (Std.LawfulEqOrd.eq_of_compare heq))
    rw [if_neg hne, if_neg hcb]
    rfl

theorem checksum_apply (log : BucketOpLog) (step : Step) (b : BucketId) :
    (step.apply codec log).checksum b = (step.commits b).elim (log.checksum b) fun e =>
      foldChecksum (log.checksum b) (codec.toVec e.2) := by
  cases step with
  | append c lsn op now committed =>
    cases committed with
    | false => rfl
    | true =>
      rw [Step.apply, checksum_append, Step.commits]
      split <;> rfl
  | compact now committed =>
    cases committed with
    | false => rfl
    | true =>
      rw [Step.apply, BucketOpLog.checksum, bucketChecksums_compact]
      rfl
  | reopen compactionTtl => rfl

theorem payloads_cons (b : BucketId) (step : Step) (steps : List Step) :
    payloads codec b (step :: steps) = (step.commits b).elim (payloads codec b steps) fun e =>
      codec.toVec e.2 :: payloads codec b steps := by
  rw [payloads, committed, List.filterMap_cons]
  cases step.commits b <;> rfl

theorem checksum_run (log : BucketOpLog) (steps : List Step) (b : BucketId) :
    (run codec log steps).checksum b =
      (payloads codec b steps).foldl foldChecksum (log.checksum b) := by
  induction steps generalizing log with
  | nil => rfl
  | cons step steps ih =>
    rw [run, List.foldl_cons, ← run, ih, checksum_apply, payloads_cons]
    cases step.commits b <;> rfl

theorem committed_append (b : BucketId) (before after : List Step) :
    committed b (before ++ after) = committed b before ++ committed b after := by
  rw [committed, List.filterMap_append, ← committed, ← committed]

def Stems (steps : List Step) (k v : Bytes) : Prop :=
  ∃ b l stored, (l, stored) ∈ committed b steps ∧ k = makeKey b l ∧ v = codec.toVec stored

variable {codec}

theorem stems_append {before after : List Step} {k v : Bytes} :
    Stems codec (before ++ after) k v ↔ Stems codec before k v ∨ Stems codec after k v := by
  simp only [Stems, committed_append, List.mem_append, or_and_right, exists_or]

theorem getElem?_apply {log : BucketOpLog} {step : Step} {k v : Bytes}
    (h : (step.apply codec log).bucketOps[k]? = some v) :
    log.bucketOps[k]? = some v ∨ Stems codec [step] k v := by
  cases step with
  | append b lsn op now committed =>
    cases committed with
    | false => exact Or.inl h
    | true =>
      rw [Step.apply, BucketOpLog.append, TreeMap.getElem?_insert] at h
      by_cases hkey : compare (makeKey b lsn) k = .eq
      · rw [if_pos hkey, Option.some.injEq] at h
        refine Or.inr ⟨b, lsn, ⟨op, now⟩, ?_, (Std.LawfulEqOrd.eq_of_compare hkey).symm, h.symm⟩
        simp [Oplog.committed, Step.commits]
      · rw [if_neg hkey] at h
        exact Or.inl h
  | compact now committed =>
    cases committed with
    | false => exact Or.inl h
    | true => exact Or.inl (BucketOpLog.getElem?_of_compact h)
  | reopen compactionTtl => exact Or.inl h

theorem stems_of_getElem? {ttl : Duration} {steps : List Step} {k v : Bytes}
    (h : (run codec (BucketOpLog.empty ttl) steps).bucketOps[k]? = some v) :
    Stems codec steps k v := by
  induction steps using List.reverseRecOn generalizing v with
  | nil => simp [run, BucketOpLog.empty] at h
  | append_singleton steps step ih =>
    rw [run, List.foldl_concat, ← run] at h
    rw [stems_append]
    cases getElem?_apply h with
    | inl hold => exact Or.inl (ih hold)
    | inr hnew => exact Or.inr hnew

theorem decodes_run (ttl : Duration) (steps : List Step) :
    (run codec (BucketOpLog.empty ttl) steps).Decodes codec := by
  intro k v h
  obtain ⟨_, _, stored, _, _, hv⟩ := stems_of_getElem? h
  exact ⟨stored, by rw [hv, codec.fromSlice_toVec]⟩

/-- A scanned envelope was committed; to the scanned bucket, if the ids fit their prefix. -/
theorem committed_of_scanned {ttl : Duration} {steps : List Step} {c : BucketId} {fromLsn : PgLsn}
    {stored : StoredOp}
    (h : stored ∈ (run codec (BucketOpLog.empty ttl) steps).envelopesSince codec c fromLsn) :
    ∃ b l, (l, stored) ∈ committed b steps ∧ (FitsPrefix b → FitsPrefix c → b = c) := by
  obtain ⟨e, he, hstored⟩ := mem_envelopesOf h
  obtain ⟨hget, hrange⟩ := OrderedScan.mem_range.mp (show (e.1, e.2) ∈ _ from he)
  obtain ⟨b, l, stored', hmem, hk, hv⟩ := stems_of_getElem? hget
  rw [hv, codec.fromSlice_toVec, Except.ok.injEq] at hstored
  rw [hstored] at hmem
  refine ⟨b, l, hmem, ?_⟩
  intro hb hc
  rw [hk] at hrange
  exact ((makeKey_mem_range hb hc).mp hrange).1

/-- The checksum covers the whole history: after every run, it is the fold of the payloads of all
committed appends to the bucket; a step that commits nothing to the bucket leaves it; and whatever
the table holds or a scan yields has been folded. -/
theorem checksum_covers_history (codec : Codec) (ttl : Duration) (steps : List Step) :
    (∀ b, (run codec (BucketOpLog.empty ttl) steps).checksum b =
      (payloads codec b steps).foldl foldChecksum 0) ∧
    (∀ b (step : Step), step.commits b = none →
      (step.apply codec (run codec (BucketOpLog.empty ttl) steps)).checksum b =
        (run codec (BucketOpLog.empty ttl) steps).checksum b) ∧
    (∀ k v : Bytes, (run codec (BucketOpLog.empty ttl) steps).bucketOps[k]? = some v →
      ∃ b l, k = makeKey b l ∧ v ∈ payloads codec b steps) ∧
    ∀ c fromLsn, ∃ ops,
      (run codec (BucketOpLog.empty ttl) steps).drainSince codec c fromLsn = .ok ops ∧
      ∀ op ∈ ops, ∃ b now, codec.toVec ⟨op, now⟩ ∈ payloads codec b steps ∧
        (FitsPrefix b → FitsPrefix c → b = c) := by
  refine ⟨?_, ?_, ?_, ?_⟩
  · intro b
    exact checksum_run codec _ steps b
  · intro b step hnone
    rw [checksum_apply, hnone]
    rfl
  · intro k v h
    obtain ⟨b, l, stored, hmem, hk, hv⟩ := stems_of_getElem? h
    exact ⟨b, l, hk, hv ▸ List.mem_map_of_mem hmem⟩
  · intro c fromLsn
    refine ⟨_, (decodes_run ttl steps).drainSince c fromLsn, ?_⟩
    intro op hop
    obtain ⟨stored, hstored, rfl⟩ := List.mem_map.mp hop
    obtain ⟨b, l, hmem, hsame⟩ := committed_of_scanned hstored
    exact ⟨b, stored.appendedAtUnixSecs, List.mem_map_of_mem hmem, hsame⟩

end EntitySync.Oplog
