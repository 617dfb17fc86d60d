import EntitySync.Library.StepSystem
import EntitySync.Router.Matching
import EntitySync.System.Replica

/-!
# Rows that leave a bucket

A bucket's replica is the replay of its log. The router sees only the new image of a changed row
and appends it to the buckets that match this image, so a row that stops matching a bucket leaves
no trace in the bucket's log and stays in its replicas.
-/

namespace EntitySync.System

open Json (Value)
open Oplog (Partitions)
open Router (EntityChange EventEnvelope ColumnHolds FiltersBy appendAll routedOps bucketOp)
open Rules (BucketAssigner Instant)
open StepSystem

def replica (log : Partitions) (b : BucketId) : RowKey → Option Value :=
  replayOps ((log b).toList.map fun e => e.2.op)

def changeWrite (change : EntityChange) : RowKey × Option Value :=
  ((change.entityType, change.entityId),
    if change.op = .delete then none else some change.data)

/-- The op log, and the source rows as of the last routed change. -/
structure Source where
  log : Partitions
  table : RowKey → Option Value

structure RoutedChange where
  assigner : BucketAssigner
  now : Instant
  wall : UInt64
  lsn : PgLsn
  change : EntityChange

namespace Source

def init (table : RowKey → Option Value) : Source := ⟨Partitions.empty, table⟩

def step (s : Source) (a : RoutedChange) : Option Source :=
  some {
    log := appendAll a.wall s.log (routedOps a.assigner a.now ⟨a.lsn, some a.change⟩)
    table := Function.update s.table (changeWrite a.change).1 (changeWrite a.change).2 }

section
variable (ruleSet : Rules.SyncRuleSet) (a₀ : BucketAssignment) (t c p : String)

/-- Every row of the bucket's replica is a current row that its data query selects. -/
def ReplicaCurrent (s : Source) : Prop :=
  ∀ key row, replica s.log a₀.bucketId key = some row →
    key.1 = t ∧ s.table key = some row ∧ ColumnHolds a₀ row c p

/-- The assignment stays cached while changes are routed in increasing LSN order, and each change
carries a full row. -/
def Routes (s : Source) (a : RoutedChange) : Prop :=
  a.assigner.ruleSet = ruleSet ∧ a₀ ∈ a.assigner.liveAssignments a.now ∧
    (∀ e ∈ (s.log a₀.bucketId).toList, e.1 < a.lsn) ∧
    ∃ fields, a.change.data = .object fields ∧ (fields.map Prod.fst).Nodup

/-- The assignment has a data query for the changed table and some column matches. -/
def Matched (change : EntityChange) : Prop :=
  change.entityType ∈ a₀.dataQueries ∧ Rules.rowMatchesAssignment change.data a₀ = true

/-- A matched change deletes its row or has its own column hold the parameter, and an unmatched
change is one of a row that the replica does not hold. -/
def KeepsMembership (s : Source) (a : RoutedChange) : Prop :=
  (Matched a₀ a.change → a.change.op = .delete ∨ ColumnHolds a₀ a.change.data c p) ∧
    (¬Matched a₀ a.change → replica s.log a₀.bucketId (changeWrite a.change).1 = none)

variable {ruleSet a₀ t c p} {s : Source} {a : RoutedChange}

/-- With the assignment live, the router appends to its bucket exactly the matched changes. -/
private theorem bucketOp_mem_routedOps_iff
    (hroutes : Routes ruleSet a₀ s a) :
    bucketOp a.lsn a.change a₀.bucketId ∈ routedOps a.assigner a.now ⟨a.lsn, some a.change⟩ ↔
      Matched a₀ a.change := by
  obtain ⟨_, hlive, _, fields, hdata, hkeys⟩ := hroutes
  have hresolved := BucketAssigner.resolvedFrom_of_live hlive
  have hiff : a₀.bucketId ∈ a.assigner.findAffectedBuckets a.now a.change.entityType
      a.change.data ↔ Matched a₀ a.change := by
    rw [BucketAssigner.mem_findAffectedBuckets]
    constructor
    · intro h
      obtain ⟨other, hother, htype, hmatch, hid⟩ := h
      have hres := BucketAssigner.resolvedFrom_of_live hother
      -- assignments with one bucket id share the rule and the parameters
      have hsame := hres.eq_of_bucketId a.assigner.valid hresolved hid
      obtain ⟨rule, hrule, _, hresolution⟩ := hres.resolution a.assigner.valid
      obtain ⟨rule', hrule', _, hresolution'⟩ := hresolved.resolution a.assigner.valid
      rw [hsame.1, hrule', Option.some.injEq] at hrule
      refine ⟨?_, ?_⟩
      · rw [hresolution'.queries, hrule, ← hresolution.queries]
        exact htype
      · rw [hdata] at hmatch ⊢
        rw [Router.rowMatches_iff a.assigner.valid hres hkeys] at hmatch
        rw [Router.rowMatches_iff a.assigner.valid hresolved hkeys]
        obtain ⟨k, q, text, v, hq, hget, htext⟩ := hmatch
        exact ⟨k, q, text, v, (hsame.2 q).symm.trans hq, hget, htext⟩
    · intro h
      exact ⟨a₀, hlive, h.1, h.2, rfl⟩
  rw [← hiff, Router.mem_routedOps]
  constructor
  · intro h
    obtain ⟨change, hchange, hmem, _⟩ := h
    cases hchange
    exact hmem
  · intro h
    exact ⟨a.change, rfl, h, rfl⟩

private theorem replica_of_matched (hroutes : Routes ruleSet a₀ s a)
    (hmatched : Matched a₀ a.change) :
    replica (appendAll a.wall s.log (routedOps a.assigner a.now ⟨a.lsn, some a.change⟩))
        a₀.bucketId =
      Function.update (replica s.log a₀.bucketId) (changeWrite a.change).1
        (changeWrite a.change).2 := by
  have hop := (bucketOp_mem_routedOps_iff hroutes).mpr hmatched
  have hlast : ∀ l stored, (s.log a₀.bucketId)[l]? = some stored → compare l a.lsn = .lt := by
    intro l stored hget
    exact Std.compare_eq_lt.mpr (hroutes.2.2.1 (l, stored)
      (Std.TreeMap.mem_toList_iff_getElem?_eq_some.mpr hget))
  have hself : (appendAll a.wall s.log (routedOps a.assigner a.now ⟨a.lsn, some a.change⟩)
      a₀.bucketId)[a.lsn]? = some ⟨bucketOp a.lsn a.change a₀.bucketId, a.wall⟩ :=
    Router.getElem?_appendAll_of_routed hop
  have hlist := OrderedScan.toList_of_last hlast hself
    fun l hl => Router.getElem?_appendAll_of_ne_offset hl
  have hwrite : opWrite (bucketOp a.lsn a.change a₀.bucketId) = some (changeWrite a.change) := by
    rw [opWrite, changeWrite, bucketOp, Router.classifyOp]
    cases a.change.op <;> rfl
  rw [replica, hlist, replica, replayOps, List.map_append, List.filterMap_append]
  simp only [List.map_cons, List.map_nil, List.filterMap_cons, hwrite, List.filterMap_nil,
    Replay.replay_concat]
  rfl

private theorem replica_of_not_matched (hroutes : Routes ruleSet a₀ s a)
    (hmatched : ¬Matched a₀ a.change) :
    replica (appendAll a.wall s.log (routedOps a.assigner a.now ⟨a.lsn, some a.change⟩))
        a₀.bucketId =
      replica s.log a₀.bucketId := by
  have hnone : ∀ x ∈ routedOps a.assigner a.now ⟨a.lsn, some a.change⟩,
      x.bucketId ≠ a₀.bucketId := by
    intro x hx hb
    apply hmatched
    rw [← bucketOp_mem_routedOps_iff hroutes]
    obtain ⟨change, hchange, _, hop⟩ := Router.mem_routedOps.mp hx
    cases hchange
    rw [hb] at hop
    exact hop ▸ hx
  have hlist : (appendAll a.wall s.log (routedOps a.assigner a.now ⟨a.lsn, some a.change⟩)
      a₀.bucketId).toList = (s.log a₀.bucketId).toList := by
    apply OrderedScan.Ordered.eq_of_mem_iff (OrderedScan.ordered_toList _)
      (OrderedScan.ordered_toList _)
    intro e
    change (e.1, e.2) ∈ _ ↔ (e.1, e.2) ∈ _
    rw [Std.TreeMap.mem_toList_iff_getElem?_eq_some, Std.TreeMap.mem_toList_iff_getElem?_eq_some,
      Router.getElem?_appendAll_of_ne]
    intro x hx hb
    exact absurd hb (hnone x hx)
  rw [replica, hlist, replica]

/-- One routed change keeps the replica current exactly when it keeps membership. -/
private theorem replicaCurrent_step_iff (hfilter : FiltersBy ruleSet a₀ t c p)
    (hsingle : ∀ name, name ∈ a₀.dataQueries ↔ name = t) (h : ReplicaCurrent a₀ t c p s)
    (hroutes : Routes ruleSet a₀ s a) {s' : Source} (hstep : s.step a = some s') :
    ReplicaCurrent a₀ t c p s' ↔ KeepsMembership a₀ c p s a := by
  cases hstep
  by_cases hmatched : Matched a₀ a.change
  · have hreplica := replica_of_matched hroutes hmatched
    have htype : a.change.entityType = t := (hsingle _).mp hmatched.1
    constructor
    · intro hcur
      refine ⟨fun _ => ?_, fun hnot => absurd hmatched hnot⟩
      by_cases hdelete : a.change.op = .delete
      · exact Or.inl hdelete
      · refine Or.inr (hcur (changeWrite a.change).1 a.change.data ?_).2.2
        rw [hreplica, Function.update_self, changeWrite, if_neg hdelete]
    · intro hkeep key row hrow
      change replica _ _ key = some row at hrow
      rw [hreplica] at hrow
      by_cases hkey : key = (changeWrite a.change).1
      · subst hkey
        rw [Function.update_self] at hrow
        refine ⟨htype, ?_, ?_⟩
        · change Function.update _ _ _ _ = _
          rw [Function.update_self, hrow]
        · cases hkeep.1 hmatched with
          | inl hdelete =>
            rw [changeWrite, if_pos hdelete] at hrow
            cases hrow
          | inr hholds =>
            by_cases hdelete : a.change.op = .delete
            · rw [changeWrite, if_pos hdelete] at hrow
              cases hrow
            · rw [changeWrite, if_neg hdelete, Option.some.injEq] at hrow
              exact hrow ▸ hholds
      · rw [Function.update_of_ne hkey] at hrow
        have hold := h key row hrow
        refine ⟨hold.1, ?_, hold.2.2⟩
        change Function.update _ _ _ _ = _
        rw [Function.update_of_ne hkey]
        exact hold.2.1
  · have hreplica := replica_of_not_matched hroutes hmatched
    constructor
    · intro hcur
      refine ⟨fun hyes => absurd hyes hmatched, fun _ => ?_⟩
      -- a row that stays selected would have been matched
      cases hrow : replica s.log a₀.bucketId (changeWrite a.change).1 with
      | none => rfl
      | some row =>
        have hafter := hcur (changeWrite a.change).1 row (hreplica.symm ▸ hrow)
        have hwrite : (changeWrite a.change).2 = some row := by
          have htable := hafter.2.1
          change Function.update _ _ _ _ = _ at htable
          rwa [Function.update_self] at htable
        have hdata : a.change.data = row := by
          rw [changeWrite] at hwrite
          by_cases hdelete : a.change.op = .delete
          · rw [if_pos hdelete] at hwrite
            cases hwrite
          · rw [if_neg hdelete, Option.some.injEq] at hwrite
            exact hwrite
        obtain ⟨hrules, hlive, _, fields, hfields, hkeys⟩ := hroutes
        refine absurd ⟨(hsingle _).mpr hafter.1, ?_⟩ hmatched
        rw [hfields, Router.rowMatches_iff a.assigner.valid (hrules ▸ hfilter.1) hkeys, ← hfields,
          hdata]
        exact ⟨c, p, hafter.2.2⟩
    · intro hkeep key row hrow
      change replica _ _ key = some row at hrow
      rw [hreplica] at hrow
      have hold := h key row hrow
      refine ⟨hold.1, ?_, hold.2.2⟩
      have hkey : key ≠ (changeWrite a.change).1 := by
        intro heq
        rw [heq, hkeep.2 hmatched] at hrow
        cases hrow
      change Function.update _ _ _ _ = _
      rw [Function.update_of_ne hkey]
      exact hold.2.1

end

private theorem dataQueries_owner42 (name : String) :
    name ∈ (Rules.ownerAssignment "42").dataQueries ↔ name = "entities" := by
  rw [Rules.ownerAssignment, AList.mem_insert]
  simp

private def routedAt (lsn : PgLsn) (change : EntityChange) : RoutedChange :=
  ⟨Rules.cachedOwner "42", 0, 0, lsn, change⟩

private def transferred : List RoutedChange :=
  [routedAt 0 (Router.ownedInsert "a" "42"),
    routedAt 1 { Router.ownedInsert "a" "7" with op := .update }]

private theorem routes_transferred :
    Meets step (Routes (Rules.cachedOwner "42").ruleSet (Rules.ownerAssignment "42"))
      (init fun _ => none) transferred := by
  intro s hs
  cases hs
  refine ⟨⟨rfl, List.mem_cons_self, by decide, _, rfl, by decide⟩, ?_⟩
  intro s hs
  cases hs
  exact ⟨⟨rfl, List.mem_cons_self, by decide, _, rfl, by decide⟩, trivial⟩

end Source

end EntitySync.System
