import EntitySync.Oplog.Store

/-!
# Compaction

`compact` scans the raw entries of all buckets and removes those whose envelope was appended before
the cutoff. The results hold for every content of the tables, also for keys and values that no
append writes.
-/

namespace EntitySync.Oplog

open Std (TreeMap)

def expired (codec : Codec) (cutoff : UInt64) (value : Bytes) : Bool :=
  match codec.fromSlice value with
  | .ok stored => decide (stored.appendedAtUnixSecs < cutoff)
  | .error _ => false

def BucketOpLog.Decodes (codec : Codec) (log : BucketOpLog) : Prop :=
  ∀ k v : Bytes, log.bucketOps[k]? = some v → ∃ stored, codec.fromSlice v = .ok stored

def envelopesOf (codec : Codec) (entries : List (Bytes × Bytes)) : List StoredOp :=
  entries.filterMap fun e =>
    if (lsnFromKey e.1).isNone then none else (codec.fromSlice e.2).toOption

def BucketOpLog.envelopesSince (codec : Codec) (log : BucketOpLog) (b : BucketId)
    (fromLsn : PgLsn) : List StoredOp :=
  envelopesOf codec
    (OrderedScan.range log.bucketOps (makeRangeStart b fromLsn) (makeBucketRangeEnd b))

section
variable {codec : Codec}

theorem expired_of_fromSlice {value : Bytes} {stored : StoredOp}
    (h : codec.fromSlice value = .ok stored) (cutoff : UInt64) :
    expired codec cutoff value = decide (stored.appendedAtUnixSecs < cutoff) := by
  rw [expired, h]

theorem expiredKeys_eq {entries : List (Bytes × Bytes)}
    (hdec : ∀ e ∈ entries, ∃ stored, codec.fromSlice e.2 = .ok stored) (cutoff : UInt64) :
    BucketOpLog.expiredKeys codec cutoff entries =
      .ok ((entries.filter fun e => expired codec cutoff e.2).map Prod.fst) := by
  induction entries with
  | nil => rfl
  | cons e entries ih =>
    obtain ⟨⟨stored, hstored⟩, hrest⟩ := List.forall_mem_cons.mp hdec
    rw [BucketOpLog.expiredKeys, hstored, ih hrest, List.filter_cons,
      expired_of_fromSlice hstored]
    by_cases hold : stored.appendedAtUnixSecs < cutoff
    · simp [hold, Except.map]
    · simp [hold, Except.map]

theorem expiredKeys_error {entries : List (Bytes × Bytes)} {bad : Bytes × Bytes}
    (hbad : bad ∈ entries) (h : ∀ stored, codec.fromSlice bad.2 ≠ .ok stored) (cutoff : UInt64) :
    ∃ e, BucketOpLog.expiredKeys codec cutoff entries = .error e := by
  induction entries with
  | nil => cases hbad
  | cons first entries ih =>
    cases hfirst : codec.fromSlice first.2 with
    | error message => exact ⟨.codec message, by rw [BucketOpLog.expiredKeys, hfirst]⟩
    | ok stored =>
      cases List.mem_cons.mp hbad with
      | inl heq => exact absurd (heq ▸ hfirst) (h stored)
      | inr hmem =>
        obtain ⟨e, he⟩ := ih hmem
        exact ⟨e, by rw [BucketOpLog.expiredKeys, hfirst, he]; rfl⟩

private theorem getElem?_foldl_erase (keys : List Bytes) (table : TreeMap Bytes Bytes)
    (k : Bytes) :
    (keys.foldl (fun table key => table.erase key) table)[k]? =
      if k ∈ keys then none else table[k]? := by
  induction keys generalizing table with
  | nil => simp
  | cons key keys ih =>
    rw [List.foldl_cons, ih, TreeMap.getElem?_erase]
    by_cases hmem : k ∈ keys
    · simp [hmem]
    · by_cases heq : k = key
      · subst heq
        simp
      · have hne : compare key k ≠ .eq := by
          intro hcmp
          exact heq (Std.LawfulEqOrd.eq_of_compare hcmp).symm
        simp [hmem, heq, hne]

namespace BucketOpLog

variable {log : BucketOpLog}

theorem Decodes.of_mem (h : log.Decodes codec) :
    ∀ e ∈ log.bucketOps.toList, ∃ stored, codec.fromSlice e.2 = .ok stored := by
  intro e he
  exact h e.1 e.2 (TreeMap.mem_toList_iff_getElem?_eq_some.mp he)

theorem compact_of_decodes (h : log.Decodes codec) (now : UInt64) :
    log.compact codec now =
      let entries := log.bucketOps.toList.filter fun e =>
        expired codec (log.compactionCutoff now) e.2
      (.ok (UInt64.ofNat entries.length), { log with
        bucketOps := (entries.map Prod.fst).foldl (fun table key => table.erase key)
          log.bucketOps }) := by
  simp only [compact, expiredKeys_eq h.of_mem, List.length_map]

/-- Exactly the entries that are not expired stay. -/
theorem getElem?_compact (h : log.Decodes codec) (now : UInt64) (k : Bytes) :
    (log.compact codec now).2.bucketOps[k]? =
      log.bucketOps[k]?.filter fun v => !expired codec (log.compactionCutoff now) v := by
  rw [compact_of_decodes h, getElem?_foldl_erase]
  have hmem (v : Bytes) (hget : log.bucketOps[k]? = some v) :
      k ∈ (log.bucketOps.toList.filter fun e =>
        expired codec (log.compactionCutoff now) e.2).map Prod.fst ↔
        expired codec (log.compactionCutoff now) v = true := by
    rw [List.mem_map]
    constructor
    · intro hex
      obtain ⟨⟨k', v'⟩, hin, rfl⟩ := hex
      obtain ⟨hin, hold⟩ := List.mem_filter.mp hin
      rw [TreeMap.mem_toList_iff_getElem?_eq_some, hget, Option.some.injEq] at hin
      rw [hin]
      exact hold
    · intro hold
      exact ⟨(k, v), List.mem_filter.mpr
        ⟨TreeMap.mem_toList_iff_getElem?_eq_some.mpr hget, hold⟩, rfl⟩
  cases hget : log.bucketOps[k]? with
  | none => simp
  | some v =>
    by_cases hold : expired codec (log.compactionCutoff now) v = true
    · rw [if_pos ((hmem v hget).mpr hold)]
      simp [Option.filter_some, hold]
    · rw [if_neg (mt (hmem v hget).mp hold)]
      simp [Option.filter_some, hold]

theorem compact_of_not_decodes (h : ¬log.Decodes codec) (now : UInt64) :
    ∃ e, log.compact codec now = (.error e, log) := by
  simp only [Decodes, not_forall, not_exists] at h
  obtain ⟨k, v, hget, hbad⟩ := h
  have hmem : (k, v) ∈ log.bucketOps.toList := TreeMap.mem_toList_iff_getElem?_eq_some.mpr hget
  obtain ⟨e, he⟩ := expiredKeys_error hmem hbad (log.compactionCutoff now)
  exact ⟨e, by rw [compact, he]⟩

theorem getElem?_of_compact {now : UInt64} {k v : Bytes}
    (h : (log.compact codec now).2.bucketOps[k]? = some v) : log.bucketOps[k]? = some v := by
  by_cases hdec : log.Decodes codec
  · rw [getElem?_compact hdec] at h
    exact (Option.filter_eq_some_iff.mp h).1
  · obtain ⟨e, he⟩ := compact_of_not_decodes hdec now
    rw [he] at h
    exact h

end BucketOpLog

end

theorem bucketChecksums_compact (codec : Codec) (log : BucketOpLog) (now : UInt64) :
    (log.compact codec now).2.bucketChecksums = log.bucketChecksums := by
  rw [BucketOpLog.compact]
  split <;> rfl

/-! ## Scans after a compaction -/

section
variable {codec : Codec}

theorem mem_envelopesOf {entries : List (Bytes × Bytes)} {stored : StoredOp}
    (h : stored ∈ envelopesOf codec entries) :
    ∃ e ∈ entries, codec.fromSlice e.2 = .ok stored := by
  obtain ⟨e, he, hstored⟩ := List.mem_filterMap.mp h
  split at hstored
  · cases hstored
  · refine ⟨e, he, ?_⟩
    cases hfrom : codec.fromSlice e.2 with
    | error message =>
      rw [hfrom] at hstored
      cases hstored
    | ok stored' =>
      rw [hfrom] at hstored
      rw [Option.some.inj hstored]

theorem decodeEntries_eq {entries : List (Bytes × Bytes)}
    (hdec : ∀ e ∈ entries, ∃ stored, codec.fromSlice e.2 = .ok stored) :
    BucketOpLog.decodeEntries codec entries =
      .ok ((envelopesOf codec entries).map StoredOp.op) := by
  induction entries with
  | nil => rfl
  | cons e entries ih =>
    obtain ⟨⟨stored, hstored⟩, hrest⟩ := List.forall_mem_cons.mp hdec
    have hcons : envelopesOf codec (e :: entries) =
        if (lsnFromKey e.1).isNone then envelopesOf codec entries
        else stored :: envelopesOf codec entries := by
      rw [envelopesOf, List.filterMap_cons, hstored]
      cases lsnFromKey e.1 <;> rfl
    rw [BucketOpLog.decodeEntries, ih hrest, hstored, hcons]
    cases lsnFromKey e.1 <;> rfl

theorem envelopesOf_filter {entries : List (Bytes × Bytes)}
    (hdec : ∀ e ∈ entries, ∃ stored, codec.fromSlice e.2 = .ok stored) (cutoff : UInt64) :
    envelopesOf codec (entries.filter fun e => !expired codec cutoff e.2) =
      (envelopesOf codec entries).filter fun stored =>
        !decide (stored.appendedAtUnixSecs < cutoff) := by
  rw [envelopesOf, envelopesOf, List.filterMap_filter, List.filter_filterMap]
  apply List.filterMap_congr
  intro e he
  obtain ⟨stored, hstored⟩ := hdec e he
  rw [expired_of_fromSlice hstored, hstored]
  cases lsnFromKey e.1 with
  | none => simp
  | some lsn => simp [Except.toOption, Option.filter_some]

namespace BucketOpLog

variable {log : BucketOpLog}

theorem Decodes.compact (h : log.Decodes codec) (now : UInt64) :
    (log.compact codec now).2.Decodes codec := by
  intro k v hk
  exact h k v (getElem?_of_compact hk)

theorem Decodes.of_mem_range (h : log.Decodes codec) (lo hi : Bytes) :
    ∀ e ∈ OrderedScan.range log.bucketOps lo hi, ∃ stored, codec.fromSlice e.2 = .ok stored := by
  intro e he
  exact h.of_mem e (List.mem_of_mem_filter he)

theorem Decodes.drainSince (h : log.Decodes codec) (b : BucketId) (fromLsn : PgLsn) :
    log.drainSince codec b fromLsn = .ok ((log.envelopesSince codec b fromLsn).map StoredOp.op) :=
  decodeEntries_eq (h.of_mem_range _ _)

theorem Decodes.envelopesSince_compact (h : log.Decodes codec) (now : UInt64) (b : BucketId)
    (fromLsn : PgLsn) :
    (log.compact codec now).2.envelopesSince codec b fromLsn =
      (log.envelopesSince codec b fromLsn).filter fun stored =>
        !decide (stored.appendedAtUnixSecs < log.compactionCutoff now) := by
  rw [envelopesSince, OrderedScan.range_filter (getElem?_compact h now),
    envelopesOf_filter (h.of_mem_range _ _), ← envelopesSince]

end BucketOpLog

end

/-! ## Ages -/

theorem saturatingSub_le_iff {a b c : UInt64} :
    saturatingSub a b ≤ c ↔ a.toNat ≤ c.toNat + b.toNat := by
  rw [saturatingSub]
  split
  case isTrue h =>
    rw [UInt64.le_iff_toNat_le] at h
    simp only [UInt64.zero_le, true_iff]
    omega
  case isFalse h =>
    have hle := UInt64.le_of_lt (UInt64.not_le.mp h)
    rw [UInt64.le_iff_toNat_le, UInt64.toNat_sub_of_le _ _ hle]
    rw [UInt64.le_iff_toNat_le] at hle
    omega

theorem toNat_unixNowSecs (t : SystemTime) :
    ((unixNowSecs t).toNat : Int) = max 0 (t.nanos / 1000000000) := by
  have hfits := t.fits
  rw [unixNowSecs]
  split
  · rw [UInt64.toNat_zero]
    omega
  · rw [UInt64.toNat_ofNat', Nat.mod_eq_of_lt (by omega)]
    omega

/-- With a TTL of whole seconds, an envelope at most that old lies on or after the cutoff. -/
theorem cutoff_le_of_age {log : BucketOpLog} (hwhole : log.compactionTtl.subsecNanos = 0)
    {appended now : SystemTime}
    (hage : now.nanos - appended.nanos ≤ log.compactionTtl.nanos) :
    log.compactionCutoff (unixNowSecs now) ≤ unixNowSecs appended := by
  have hnow := toNat_unixNowSecs now
  have happended := toNat_unixNowSecs appended
  rw [Duration.nanos, hwhole, UInt32.toNat_zero] at hage
  rw [BucketOpLog.compactionCutoff, saturatingSub_le_iff]
  omega

structure CompactsExactly (codec : Codec) (log : BucketOpLog) (now : UInt64) : Prop where
  removed : (log.compact codec now).1 = .ok (UInt64.ofNat
    (log.bucketOps.toList.filter fun e => expired codec (log.compactionCutoff now) e.2).length)
  kept : ∀ k : Bytes, (log.compact codec now).2.bucketOps[k]? =
    log.bucketOps[k]?.filter fun v => !expired codec (log.compactionCutoff now) v
  drained : ∀ b fromLsn,
    log.drainSince codec b fromLsn = .ok ((log.envelopesSince codec b fromLsn).map StoredOp.op) ∧
    (log.compact codec now).2.drainSince codec b fromLsn =
      .ok (((log.envelopesSince codec b fromLsn).filter fun stored =>
        !decide (stored.appendedAtUnixSecs < log.compactionCutoff now)).map StoredOp.op)
  again : ((log.compact codec now).2.compact codec now).1 = .ok 0

theorem BucketOpLog.compactionTtl_compact (codec : Codec) (log : BucketOpLog) (now : UInt64) :
    (log.compact codec now).2.compactionTtl = log.compactionTtl := by
  rw [BucketOpLog.compact]
  split <;> rfl

theorem BucketOpLog.Decodes.compactsExactly {codec : Codec} {log : BucketOpLog}
    (h : log.Decodes codec) (now : UInt64) : CompactsExactly codec log now where
  removed := by rw [BucketOpLog.compact_of_decodes h]
  kept := BucketOpLog.getElem?_compact h now
  drained b fromLsn := by
    refine ⟨h.drainSince b fromLsn, ?_⟩
    rw [(h.compact now).drainSince, h.envelopesSince_compact]
  again := by
    have hcutoff : (log.compact codec now).2.compactionCutoff now = log.compactionCutoff now := by
      rw [BucketOpLog.compactionCutoff, BucketOpLog.compactionTtl_compact,
        BucketOpLog.compactionCutoff]
    have hnone : ((log.compact codec now).2.bucketOps.toList.filter fun e =>
        expired codec (log.compactionCutoff now) e.2) = [] := by
      apply List.filter_eq_nil_iff.mpr
      intro e he
      rw [TreeMap.mem_toList_iff_getElem?_eq_some, BucketOpLog.getElem?_compact h,
        Option.filter_eq_some_iff] at he
      simpa using he.2
    rw [BucketOpLog.compact_of_decodes (h.compact now), hcutoff, hnone]
    rfl

/-- Compaction removes exactly the expired entries: of decodable entries it removes, counts and
hides from scans those appended before the cutoff, and a second run finds none; with an entry that
does not decode it changes nothing. Checksums stay, and so does every entry that is, to the
nanosecond, not older than a TTL of whole seconds. -/
theorem compact_exact (codec : Codec) (log : BucketOpLog) :
    (∀ now, log.Decodes codec → CompactsExactly codec log now) ∧
    (∀ now, ¬log.Decodes codec → ∃ e, log.compact codec now = (.error e, log)) ∧
    (∀ now, (log.compact codec now).2.bucketChecksums = log.bucketChecksums) ∧
    (log.compactionTtl.subsecNanos = 0 →
      ∀ (k v : Bytes) stored, log.bucketOps[k]? = some v → codec.fromSlice v = .ok stored →
        ∀ appended now : SystemTime, stored.appendedAtUnixSecs = unixNowSecs appended →
          now.nanos - appended.nanos ≤ log.compactionTtl.nanos →
            (log.compact codec (unixNowSecs now)).2.bucketOps[k]? = some v) := by
  refine ⟨fun now h => h.compactsExactly now, fun now h => BucketOpLog.compact_of_not_decodes h now,
    bucketChecksums_compact codec log, ?_⟩
  intro hwhole k v stored hget hstored appended now happended hage
  by_cases hdec : log.Decodes codec
  · have hkept : expired codec (log.compactionCutoff (unixNowSecs now)) v = false := by
      rw [expired_of_fromSlice hstored, happended]
      exact decide_eq_false (UInt64.not_lt.mpr (cutoff_le_of_age hwhole hage))
    rw [BucketOpLog.getElem?_compact hdec, hget, Option.filter_some, hkept]
    rfl
  · obtain ⟨e, he⟩ := BucketOpLog.compact_of_not_decodes hdec (unixNowSecs now)
    rw [he]
    exact hget

end EntitySync.Oplog
