import EntitySync.Oplog.Compaction

/-!
# The op log as one ordered partition per bucket

What the op log is for: each bucket has its own map from LSNs to envelopes. The byte tables of
`BucketOpLog` represent such a family of partitions as long as every bucket id fits the length
prefix, and each operation on the tables is the corresponding operation on the partitions.
-/

namespace EntitySync.Oplog

open Std (TreeMap)

/-- One map from LSNs to envelopes for every bucket. -/
abbrev Partitions := BucketId → TreeMap PgLsn StoredOp

namespace Partitions

def empty : Partitions := fun _ => ∅

def append (ps : Partitions) (now : UInt64) (b : BucketId) (lsn : PgLsn) (op : BucketOp) :
    Partitions :=
  fun c => if c = b then (ps b).insert lsn ⟨op, now⟩ else ps c

def compact (ps : Partitions) (cutoff : UInt64) : Partitions :=
  fun b => (ps b).filter fun _ stored => !decide (stored.appendedAtUnixSecs < cutoff)

/-- The entries of `b` from `fromLsn` on; like the code's range, without `u64::MAX`. -/
def since (ps : Partitions) (b : BucketId) (fromLsn : PgLsn) : List (PgLsn × StoredOp) :=
  OrderedScan.range (ps b) fromLsn PgLsn.max

def drainSince (ps : Partitions) (b : BucketId) (fromLsn : PgLsn) : List BucketOp :=
  (ps.since b fromLsn).map fun entry => entry.2.op

theorem getElem?_append (ps : Partitions) (now : UInt64) (b c : BucketId) (lsn l : PgLsn)
    (op : BucketOp) :
    (ps.append now b lsn op c)[l]? =
      if c = b ∧ l = lsn then some ⟨op, now⟩ else (ps c)[l]? := by
  by_cases hc : c = b
  · subst hc
    rw [append, if_pos rfl, TreeMap.getElem?_insert]
    by_cases hl : l = lsn
    · subst hl
      simp
    · have hne : compare lsn l ≠ .eq := by
        intro h
        exact hl (Std.LawfulEqOrd.eq_of_compare h).symm
      simp [hl, hne]
  · simp [append, hc]

/-- An append above all entries of its bucket adds its entry at the end. -/
theorem toList_append_last {ps : Partitions} {b : BucketId} {lsn : PgLsn}
    (hlast : ∀ e ∈ (ps b).toList, e.1 < lsn) (now : UInt64) (op : BucketOp) :
    (ps.append now b lsn op b).toList = (ps b).toList ++ [(lsn, ⟨op, now⟩)] := by
  rw [append, if_pos rfl]
  apply OrderedScan.toList_insert_last
  intro l stored hget
  exact Std.compare_eq_lt.mpr (hlast (l, stored) (TreeMap.mem_toList_iff_getElem?_eq_some.mpr hget))

theorem exists_append {ps : Partitions} {b : BucketId} {l : PgLsn}
    (h : ∃ stored, (ps b)[l]? = some stored) (now : UInt64) (c : BucketId) (lsn : PgLsn)
    (op : BucketOp) : ∃ stored, (ps.append now c lsn op b)[l]? = some stored := by
  obtain ⟨stored, hget⟩ := h
  rw [getElem?_append]
  split
  · exact ⟨_, rfl⟩
  · exact ⟨stored, hget⟩

theorem getElem?_compact (ps : Partitions) (cutoff : UInt64) (b : BucketId) (l : PgLsn) :
    (ps.compact cutoff b)[l]? =
      (ps b)[l]?.filter fun stored => !decide (stored.appendedAtUnixSecs < cutoff) := by
  rw [compact, TreeMap.getElem?_filter']

theorem mem_since {ps : Partitions} {b : BucketId} {fromLsn l : PgLsn} {stored : StoredOp} :
    (l, stored) ∈ ps.since b fromLsn ↔
      (ps b)[l]? = some stored ∧ fromLsn ≤ l ∧ l < PgLsn.max := by
  rw [since, OrderedScan.mem_range, Std.isLE_compare, Std.compare_eq_lt]

theorem mem_drainSince {ps : Partitions} {b : BucketId} {fromLsn : PgLsn} {op : BucketOp} :
    op ∈ ps.drainSince b fromLsn ↔
      ∃ l stored, (ps b)[l]? = some stored ∧ fromLsn ≤ l ∧ l < PgLsn.max ∧ stored.op = op := by
  rw [drainSince, List.mem_map]
  constructor
  · intro h
    obtain ⟨⟨l, stored⟩, hmem, hop⟩ := h
    have hin := mem_since.mp hmem
    exact ⟨l, stored, hin.1, hin.2.1, hin.2.2, hop⟩
  · intro h
    obtain ⟨l, stored, hget, hlow, hhigh, hop⟩ := h
    exact ⟨(l, stored), mem_since.mpr ⟨hget, hlow, hhigh⟩, hop⟩

/-- Every entry has an op that is allowed in its bucket, under the LSN of the op. -/
def KeyedBy (allowed : BucketId → BucketOp → Prop) (ps : Partitions) : Prop :=
  ∀ (b : BucketId) (l : PgLsn) (stored : StoredOp), (ps b)[l]? = some stored →
    stored.op.lsn = l ∧ allowed b stored.op

section
variable {ps : Partitions} {allowed allowed' : BucketId → BucketOp → Prop}

theorem keyedBy_empty : empty.KeyedBy allowed := by
  intro b l stored h
  simp [empty] at h

theorem KeyedBy.imp (h : ps.KeyedBy allowed)
    (himp : ∀ b op, allowed b op → allowed' b op) : ps.KeyedBy allowed' := by
  intro b l stored hget
  have hentry := h b l stored hget
  exact ⟨hentry.1, himp b stored.op hentry.2⟩

theorem KeyedBy.append (h : ps.KeyedBy allowed) (now : UInt64) (b : BucketId) {op : BucketOp}
    (hop : allowed b op) : (ps.append now b op.lsn op).KeyedBy allowed := by
  intro c l stored hget
  rw [getElem?_append] at hget
  split at hget
  next heq =>
    cases hget
    rw [heq.1, heq.2]
    exact ⟨rfl, hop⟩
  next => exact h c l stored hget

theorem KeyedBy.compact (h : ps.KeyedBy allowed) (cutoff : UInt64) :
    (ps.compact cutoff).KeyedBy allowed := by
  intro c l stored hget
  rw [getElem?_compact] at hget
  exact h c l stored (Option.filter_eq_some_iff.mp hget).1

theorem KeyedBy.mem_drainSince (h : ps.KeyedBy allowed) {b : BucketId} {fromLsn : PgLsn}
    {op : BucketOp} :
    op ∈ ps.drainSince b fromLsn ↔ fromLsn ≤ op.lsn ∧ op.lsn < PgLsn.max ∧
      ∃ stored, (ps b)[op.lsn]? = some stored ∧ stored.op = op := by
  rw [Partitions.mem_drainSince]
  constructor
  · rintro ⟨l, stored, hget, hle, hlt, rfl⟩
    have hkey := (h b l stored hget).1
    exact ⟨hkey.symm ▸ hle, hkey.symm ▸ hlt, stored, hkey.symm ▸ hget, rfl⟩
  · rintro ⟨hle, hlt, stored, hget, rfl⟩
    exact ⟨_, stored, hget, hle, hlt, rfl⟩

end

theorem drainSince_congr {ps qs : Partitions} {b : BucketId}
    (h : ∀ l : PgLsn, (ps b)[l]?.map StoredOp.op = (qs b)[l]?.map StoredOp.op) (fromLsn : PgLsn) :
    ps.drainSince b fromLsn = qs.drainSince b fromLsn := by
  have hordered (rs : Partitions) : OrderedScan.Ordered
      ((rs.since b fromLsn).map fun entry => (entry.1, entry.2.op)) :=
    (OrderedScan.ordered_range (rs b) fromLsn PgLsn.max).map fun _ _ _ _ hlt => hlt
  have hmem (rs : Partitions) (l : PgLsn) (op : BucketOp) :
      (l, op) ∈ (rs.since b fromLsn).map (fun entry => (entry.1, entry.2.op)) ↔
        (rs b)[l]?.map StoredOp.op = some op ∧ fromLsn ≤ l ∧ l < PgLsn.max := by
    simp only [List.mem_map, Prod.exists, Prod.mk.injEq, mem_since, Option.map_eq_some_iff]
    constructor
    · rintro ⟨_, stored, ⟨hget, hrange⟩, rfl, rfl⟩
      exact ⟨⟨stored, hget, rfl⟩, hrange⟩
    · rintro ⟨⟨stored, hget, rfl⟩, hrange⟩
      exact ⟨l, stored, ⟨hget, hrange⟩, rfl, rfl⟩
  have hlists : (ps.since b fromLsn).map (fun entry => (entry.1, entry.2.op)) =
      (qs.since b fromLsn).map (fun entry => (entry.1, entry.2.op)) := by
    refine (hordered ps).eq_of_mem_iff (hordered qs) ?_
    rintro ⟨l, op⟩
    rw [hmem, hmem, h]
  have hops := congrArg (List.map Prod.snd) hlists
  rwa [List.map_map, List.map_map] at hops

/-- An append at the end of its bucket, or a repeated one, extends every scan at its end. -/
theorem drainSince_append_of_last {ps : Partitions} {b : BucketId} {lsn : PgLsn} {op : BucketOp}
    (h : ∀ l stored, (ps b)[l]? = some stored → l < lsn ∨ l = lsn ∧ stored.op = op)
    (now : UInt64) (c : BucketId) (fromLsn : PgLsn) :
    ps.drainSince c fromLsn <+: (ps.append now b lsn op).drainSince c fromLsn := by
  by_cases hc : c = b
  · subst hc
    cases hget : (ps c)[lsn]? with
    | some stored =>
      have hop : stored.op = op := by
        cases h lsn stored hget with
        | inl hlt => exact absurd hlt (UInt64.lt_irrefl lsn)
        | inr heq => exact heq.2
      have hsame : ∀ l : PgLsn,
          (ps c)[l]?.map StoredOp.op = (ps.append now c lsn op c)[l]?.map StoredOp.op := by
        intro l
        rw [getElem?_append]
        split
        next heq => simp [heq.2, hget, hop]
        next => rfl
      exact ⟨[], (List.append_nil _).trans (drainSince_congr hsame fromLsn)⟩
    | none =>
      have hlast : ∀ e ∈ (ps c).toList, e.1 < lsn := by
        intro e he
        have hstored : (ps c)[e.1]? = some e.2 := TreeMap.mem_toList_iff_getElem?_eq_some.mp he
        cases h e.1 e.2 hstored with
        | inl hlt => exact hlt
        | inr heq =>
          rw [heq.1, hget] at hstored
          cases hstored
      refine List.IsPrefix.map _ ?_
      rw [since, since, OrderedScan.range, OrderedScan.range, toList_append_last hlast,
        List.filter_append]
      exact List.prefix_append _ _
  · have hsame : ps.append now b lsn op c = ps c := if_neg hc
    refine ⟨[], ?_⟩
    rw [List.append_nil, drainSince, drainSince, since, since, hsame]

theorem since_sorted (ps : Partitions) (b : BucketId) (fromLsn : PgLsn) :
    (ps.since b fromLsn).Pairwise fun x y => x.1 < y.1 := by
  apply (OrderedScan.ordered_range (ps b) fromLsn PgLsn.max).imp
  intro x y hlt
  exact Std.compare_eq_lt.mp hlt

end Partitions

def FitsPrefix (b : BucketId) : Prop := (idBytes b).length ≤ maxBucketIdLen

instance (b : BucketId) : Decidable (FitsPrefix b) := inferInstanceAs (Decidable (_ ≤ _))

section
variable (codec : Codec)

/-- The `bucket_ops` table holds exactly the encoded entries of the partitions. -/
structure Represents (log : BucketOpLog) (ps : Partitions) : Prop where
  get : ∀ b, FitsPrefix b → ∀ l, log.bucketOps[makeKey b l]? = (ps b)[l]?.map codec.toVec
  keyed : ∀ k v, log.bucketOps[k]? = some v → ∃ b l, FitsPrefix b ∧ k = makeKey b l

variable {codec} {log : BucketOpLog} {ps : Partitions}

theorem represents_empty (ttl : Duration) :
    Represents codec (BucketOpLog.empty ttl) Partitions.empty := by
  constructor
  · intro b _ l
    simp [BucketOpLog.empty, Partitions.empty]
  · intro k v h
    simp [BucketOpLog.empty] at h

theorem Represents.append (h : Represents codec log ps) (now : UInt64) {b : BucketId}
    (hb : FitsPrefix b) (lsn : PgLsn) (op : BucketOp) :
    Represents codec (log.append codec now b lsn op) (ps.append now b lsn op) := by
  constructor
  · intro c hc l
    rw [Partitions.getElem?_append, BucketOpLog.append, TreeMap.getElem?_insert]
    by_cases heq : c = b ∧ l = lsn
    · rw [if_pos heq, heq.1, heq.2, if_pos Std.ReflOrd.compare_self]
      rfl
    · have hne : compare (makeKey b lsn) (makeKey c l) ≠ .eq := by
        intro hcmp
        have hkey := makeKey_injective hb hc (Std.LawfulEqOrd.eq_of_compare hcmp)
        exact heq ⟨hkey.1.symm, hkey.2.symm⟩
      rw [if_neg heq, if_neg hne]
      exact h.get c hc l
  · intro k v hk
    rw [BucketOpLog.append, TreeMap.getElem?_insert] at hk
    by_cases hcmp : compare (makeKey b lsn) k = .eq
    · exact ⟨b, lsn, hb, (Std.LawfulEqOrd.eq_of_compare hcmp).symm⟩
    · rw [if_neg hcmp] at hk
      exact h.keyed k v hk

theorem Represents.entry (h : Represents codec log ps) {k v : Bytes}
    (hk : log.bucketOps[k]? = some v) :
    ∃ b l stored, FitsPrefix b ∧ k = makeKey b l ∧ (ps b)[l]? = some stored ∧
      v = codec.toVec stored := by
  obtain ⟨b, l, hb, rfl⟩ := h.keyed k v hk
  rw [h.get b hb l] at hk
  obtain ⟨stored, hstored, rfl⟩ := Option.map_eq_some_iff.mp hk
  exact ⟨b, l, stored, hb, rfl, hstored, rfl⟩

theorem Represents.decodes (h : Represents codec log ps) : log.Decodes codec := by
  intro k v hk
  obtain ⟨_, _, stored, _, _, _, hv⟩ := h.entry hk
  exact ⟨stored, by rw [hv, codec.fromSlice_toVec]⟩

theorem Represents.compact (h : Represents codec log ps) (now : UInt64) :
    Represents codec (log.compact codec now).2 (ps.compact (log.compactionCutoff now)) := by
  constructor
  · intro b hb l
    rw [BucketOpLog.getElem?_compact h.decodes, Partitions.getElem?_compact, h.get b hb l]
    cases (ps b)[l]? with
    | none => rfl
    | some stored =>
      have hold := expired_of_fromSlice (codec.fromSlice_toVec stored) (log.compactionCutoff now)
      simp only [Option.map_some, Option.filter_some, hold]
      split <;> rfl
  · intro k v hk
    exact h.keyed k v (BucketOpLog.getElem?_of_compact hk)

private theorem decodeEntries_encoded (entries : List (PgLsn × StoredOp)) (b : BucketId) :
    BucketOpLog.decodeEntries codec
        (entries.map fun e => (makeKey b e.1, codec.toVec e.2)) =
      .ok (entries.map fun e => e.2.op) := by
  induction entries with
  | nil => rfl
  | cons e entries ih =>
    simp only [List.map_cons, BucketOpLog.decodeEntries, lsnFromKey_makeKey, Option.isNone_some,
      Bool.false_eq_true, if_false, codec.fromSlice_toVec, ih]
    rfl

/-- A scan of the byte table is the scan of the bucket's partition. -/
theorem Represents.drainSince (h : Represents codec log ps) {b : BucketId} (hb : FitsPrefix b)
    (fromLsn : PgLsn) : log.drainSince codec b fromLsn = .ok (ps.drainSince b fromLsn) := by
  have hrange : OrderedScan.range log.bucketOps (makeRangeStart b fromLsn)
      (makeBucketRangeEnd b) =
      (ps.since b fromLsn).map fun e => (makeKey b e.1, codec.toVec e.2) := by
    apply OrderedScan.Ordered.eq_of_mem_iff (OrderedScan.ordered_range _ _ _)
    · apply (OrderedScan.ordered_range (ps b) fromLsn PgLsn.max).map
      intro x _ y _ hlt
      rw [compare_makeKey_self hb]
      exact hlt
    · intro e
      obtain ⟨k, v⟩ := e
      rw [OrderedScan.mem_range, List.mem_map]
      constructor
      · intro hin
        obtain ⟨hk, hrange⟩ := hin
        obtain ⟨c, l, stored, hc, rfl, hget, rfl⟩ := h.entry hk
        obtain ⟨rfl, hlow, hhigh⟩ := (makeKey_mem_range hc hb).mp hrange
        exact ⟨(l, stored), Partitions.mem_since.mpr ⟨hget, hlow, hhigh⟩, rfl⟩
      · intro hin
        obtain ⟨⟨l, stored⟩, hmem, heq⟩ := hin
        obtain ⟨rfl, rfl⟩ := Prod.mk.inj heq
        have hsince := Partitions.mem_since.mp hmem
        refine ⟨?_, (makeKey_mem_range hb hb).mpr ⟨rfl, hsince.2⟩⟩
        rw [h.get b hb l, hsince.1]
        rfl
  rw [BucketOpLog.drainSince, hrange, decodeEntries_encoded]
  rfl

end

end EntitySync.Oplog
