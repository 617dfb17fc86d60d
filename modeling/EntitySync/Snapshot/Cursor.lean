import EntitySync.Snapshot.Paging

/-!
# Filter, order and end of a snapshot stream

A page is filtered by the cursor after the cast that was detected once, and ordered by the id
column. On rows that do not change, the pages hold every row once for every batch size exactly if
the cursor of each row lets through the rows after it and no others. The stream reaches its end as
long as every full page leaves a cursor that excludes the page's own last row.
-/

namespace EntitySync.Snapshot

open Keyset (Before Beyond Distinct)
open StepSystem

variable {α ν τ : Type} [LinearOrder ν] [LinearOrder τ] {col : IdColumn α ν τ}
  {batchSize : UInt64} {idCast : IdCast} {rows : List (ResultRow col)} {s t : QueryStream col}

omit [LinearOrder ν] [LinearOrder τ] in
theorem map_range_const (rows : List (ResultRow col)) (n : Nat) :
    ((List.range n).map fun _ => rows) = List.replicate n rows := by
  rw [List.map_const', List.length_range]

theorem passes_of_later {earlier later : Option String} {l r : Option α}
    (hl : passes col idCast earlier l = true) (hout : passes col idCast later l = false)
    (hr : passes col idCast later r = true) : passes col idCast earlier r = true := by
  cases later with
  | none => cases hout
  | some later =>
    cases earlier with
    | none => rfl
    | some earlier =>
      cases l with
      | none => cases hl
      | some x =>
        cases r with
        | none => cases hr
        | some y =>
          cases idCast with
          | numeric =>
            simp only [passes, decide_eq_true_eq, decide_eq_false_iff_not, not_lt] at hl hout hr ⊢
            exact (hl.trans_le hout).trans hr
          | text =>
            simp only [passes, decide_eq_true_eq, decide_eq_false_iff_not, not_lt] at hl hout hr ⊢
            exact (hl.trans_le hout).trans hr

theorem exists_le_of_passes {page : List (ResultRow col)} {cursor : Option String}
    (hpage : fetchPage rows cursor batchSize idCast = some page) (hpos : 0 < batchSize.toNat)
    {r : ResultRow col} (hr : r ∈ rows) (hpass : passes col idCast cursor r.id = true) :
    ∃ first ∈ page, byId col first r := by
  obtain ⟨_, rfl⟩ := fetchPage_eq_some.mp hpage
  have hmem : r ∈ (rows.filter fun r => passes col idCast cursor r.id).insertionSort
      (byId col) := by simp [hr, hpass]
  have hsorted := List.pairwise_insertionSort (byId col)
    (rows.filter fun r => passes col idCast cursor r.id)
  cases hlist : (rows.filter fun r => passes col idCast cursor r.id).insertionSort (byId col) with
  | nil =>
    rw [hlist] at hmem
    cases hmem
  | cons first rest =>
    rw [hlist] at hmem hsorted
    refine ⟨first, List.mem_take_iff_getElem.mpr ⟨0, by simpa using hpos, rfl⟩, ?_⟩
    rcases List.mem_cons.mp hmem with rfl | hrest
    · exact refl_of (byId col) r
    · exact (List.pairwise_cons.mp hsorted).1 r hrest

theorem emitted_isPrefix {states : List (List (ResultRow col))}
    (hlimit : batchSize.toNat < 2 ^ 63)
    (hrun : run (QueryStream.step batchSize) s states = some t) :
    ∃ more, t.emitted = s.emitted ++ more := by
  refine run_invariant (I := fun u => ∃ more, u.emitted = s.emitted ++ more) ?_
    ⟨[], (List.append_nil _).symm⟩ hrun
  rintro u rows v ⟨more, hmore⟩ hstep
  obtain ⟨paging, page, _, _, ⟨_, rfl⟩ | ⟨_, rfl⟩⟩ := QueryStream.exists_page_of_step hlimit hstep
  · exact ⟨more ++ page, by simp [hmore]⟩
  · exact ⟨more ++ page, by simp [hmore]⟩

structure KeyedTable (col : IdColumn α ν τ) where
  rows : List (ResultRow col)
  nonNull : ∀ r ∈ rows, ∃ x, r.id = some x
  unique : Distinct (byId col) rows
  bounded : rows.length < 2 ^ 63

def castLt (col : IdColumn α ν τ) : IdCast → α → α → Prop
  | .numeric, x, y => col.numeric x < col.numeric y
  | .text, x, y => col.sortKey (col.text x) < col.sortKey (col.text y)

instance (x y : α) : Decidable (castLt col idCast x y) :=
  match idCast with
  | .numeric => inferInstanceAs (Decidable (_ < _))
  | .text => inferInstanceAs (Decidable (_ < _))

theorem castLt_of_passes {cursor : Option String} {x y : α}
    (hx : passes col idCast cursor (some x) = false)
    (hy : passes col idCast cursor (some y) = true) : castLt col idCast x y := by
  cases cursor with
  | none => cases hx
  | some text =>
    cases idCast with
    | numeric =>
      simp only [passes, decide_eq_true_eq, decide_eq_false_iff_not, not_lt] at hx hy
      exact hx.trans_lt hy
    | text =>
      simp only [passes, decide_eq_true_eq, decide_eq_false_iff_not, not_lt] at hx hy
      exact hx.trans_lt hy

theorem castLt_asymm {x y : α} (hxy : castLt col idCast x y) : ¬castLt col idCast y x := by
  cases idCast with
  | numeric => exact lt_asymm hxy
  | text => exact lt_asymm hxy

def OrdersAgree (idCast : IdCast) (rows : List (ResultRow col)) : Prop :=
  ∀ l ∈ rows, ∀ r ∈ rows, ∀ x ∈ l.id, ∀ y ∈ r.id,
    castLt col idCast x y ↔ Before (byId col) l r

def EmitsOnce (batchSize : UInt64) (s : QueryStream col) (rows : List (ResultRow col)) : Prop :=
  ∃ n t, run (QueryStream.step batchSize) s (List.replicate n rows) = some t ∧
    t.progress = .complete ∧ t.emitted.Perm rows

namespace KeyedTable

variable (table : KeyedTable col) (detected : List (ResultRow col))

omit [LinearOrder ν] [LinearOrder τ] in
theorem eq_of_same_place {l r : ResultRow col} (hl : l ∈ table.rows) (hr : r ∈ table.rows)
    (hlr : byId col l r) (hrl : byId col r l) : l = r := by
  by_contra hne
  have hsymm : Std.Symm fun a b : ResultRow col => ¬(byId col a b ∧ byId col b a) :=
    ⟨fun a b h hba => h hba.symm⟩
  exact table.unique.forall hl hr hne ⟨hlr, hrl⟩

omit [LinearOrder ν] [LinearOrder τ] in
theorem nodup : table.rows.Nodup := by
  refine table.unique.imp ?_
  rintro a b h rfl
  exact h ⟨refl_of (byId col) a, refl_of (byId col) a⟩

/-- With exact cursors the pages hold every row once. -/
theorem emitsOnce_of_cursorExact (hpos : 0 < batchSize) (hlimit : batchSize.toNat < 2 ^ 63)
    (h : CursorExact col (detectIdCast (detectedType col detected)) (· ∈ table.rows)) :
    EmitsOnce batchSize (start col detected) table.rows := by
  have hpos' : 0 < batchSize.toNat := UInt64.lt_iff_toNat_lt.mp hpos
  have hmem {P : List (ResultRow col) → Prop} (hP : P table.rows) (n : Nat) :
      ∀ rows ∈ List.replicate n table.rows, P rows := by
    intro rows hrows
    rw [List.eq_of_mem_replicate hrows]
    exact hP
  have hbound (k : Nat) (w : Keyset.Walk (ResultRow col))
      (hw : run (Keyset.step (byId col) batchSize.toNat) ⟨[], false⟩
        ((List.range k).map fun _ => table.rows) = some w) :
      w.taken.length ≤ table.rows.length := by
    rw [map_range_const] at hw
    have hbefore := Keyset.pairwise_before_taken (hmem table.unique k) hw
    have hsub : ∀ r ∈ w.taken, r ∈ table.rows :=
      Keyset.forall_taken (hmem (fun _ hr => hr) k) hw
    exact ((Keyset.nodup_of_pairwise_before hbefore).subperm hsub).length_le
  obtain ⟨n, t, hrun, hwalk, hdone, _⟩ :=
    QueryStream.exists_complete hpos' hlimit h (fun _ _ hr => hr) _ hbound
  rw [map_range_const] at hrun hwalk
  have htaken : t.emitted = _ := Keyset.taken_eq_insertionSort hpos' table.unique hwalk hdone
  refine ⟨n, t, hrun, QueryStream.isComplete_eq_true.mp hdone, ?_⟩
  rw [htaken]
  exact List.perm_insertionSort _ _

theorem ordersAgree_of_cursorExact (h : CursorExact col idCast (· ∈ table.rows)) :
    OrdersAgree idCast table.rows := by
  have hcast {l r : ResultRow col} (hl : l ∈ table.rows) (hr : r ∈ table.rows) {x y : α}
      (hx : l.id = some x) (hy : r.id = some y) (hbefore : Before (byId col) l r) :
      castLt col idCast x y := by
    obtain ⟨text, htext, hself⟩ := h l l hl hl
    obtain ⟨text', htext', hcut⟩ := h l r hl hr
    obtain rfl : text = text' := Option.some.inj (htext.symm.trans htext')
    rw [hx] at hself
    rw [hy] at hcut
    refine castLt_of_passes (Bool.eq_false_iff.mpr fun hpass => ?_) (hcut.mpr hbefore)
    exact hself.mp hpass (refl_of (byId col) l)
  intro l hl r hr x hx y hy
  constructor
  · intro hlt hrl
    by_cases hlr : byId col l r
    · obtain rfl := table.eq_of_same_place hl hr hlr hrl
      obtain rfl : x = y := Option.some.inj (hx.symm.trans hy)
      exact castLt_asymm hlt hlt
    · exact castLt_asymm hlt (hcast hr hl hy hx hlr)
  · exact hcast hl hr hx hy

omit [LinearOrder ν] [LinearOrder τ] in
/-- For every row there is a batch size with which the first page is full and ends with it. -/
theorem exists_batchSize {l : ResultRow col} (hl : l ∈ table.rows) : ∃ batchSize : UInt64,
    0 < batchSize.toNat ∧ batchSize.toNat < 2 ^ 63 ∧
    ¬(Keyset.page (byId col) batchSize.toNat table.rows none).length < batchSize.toNat ∧
    (Keyset.page (byId col) batchSize.toNat table.rows none).getLast? = some l := by
  have hmem : l ∈ Keyset.ahead (byId col) table.rows none :=
    Keyset.mem_ahead.mpr ⟨hl, fun _ h => by cases h⟩
  have hlength : (Keyset.ahead (byId col) table.rows none).length ≤ table.rows.length := by
    rw [Keyset.ahead, List.length_insertionSort]
    exact List.length_filter_le _ _
  obtain ⟨i, hi, hget⟩ := List.mem_iff_getElem.mp hmem
  have hsize : i + 1 < 2 ^ 63 := by
    have hbounded := table.bounded
    omega
  have htoNat : (UInt64.ofNat (i + 1)).toNat = i + 1 := by
    apply UInt64.toNat_ofNat_of_lt
    change i + 1 < 2 ^ 64
    omega
  refine ⟨UInt64.ofNat (i + 1), ?_, ?_, ?_, ?_⟩
  · omega
  · omega
  · rw [htoNat, Keyset.page, List.length_take]
    omega
  · rw [htoNat, Keyset.page, List.getLast?_take, if_neg (Nat.succ_ne_zero i), Nat.add_sub_cancel,
      List.getElem?_eq_getElem hi, hget, Option.some_or]

theorem step_start (hlimit : batchSize.toNat < 2 ^ 63)
    (hfull : ¬(Keyset.page (byId col) batchSize.toNat table.rows none).length <
      batchSize.toNat) :
    (start col detected).step batchSize table.rows = some
      ⟨[⟨Keyset.page (byId col) batchSize.toNat table.rows none, 0, false⟩],
        .reading ⟨detectIdCast (detectedType col detected),
          (Keyset.page (byId col) batchSize.toNat table.rows none).getLast?.bind
            ResultRow.cursor, 1⟩⟩ := by
  have hpage : fetchPage table.rows none batchSize (detectIdCast (detectedType col detected)) =
      some (Keyset.page (byId col) batchSize.toNat table.rows none) :=
    QueryStream.fetchPage_eq_page hlimit fun r _ => by simp [passes, Beyond]
  have hread : (start col detected).progress =
      .reading ⟨detectIdCast (detectedType col detected), none, 0⟩ := rfl
  exact QueryStream.step_of_full hread hpage hfull

theorem before_of_passes {l r : ResultRow col} (hpos : 0 < batchSize.toNat)
    (hlimit : batchSize.toNat < 2 ^ 63)
    (hfull : ¬(Keyset.page (byId col) batchSize.toNat table.rows none).length <
      batchSize.toNat)
    (hlast : (Keyset.page (byId col) batchSize.toNat table.rows none).getLast? = some l)
    (honce : EmitsOnce batchSize (start col detected) table.rows) (hr : r ∈ table.rows)
    (hpass : passes col (detectIdCast (detectedType col detected)) l.cursor r.id = true) :
    Before (byId col) l r := by
  obtain ⟨n, t, hrun, hcomplete, hperm⟩ := honce
  have hstep := table.step_start detected hlimit hfull
  rw [hlast, Option.bind_some] at hstep
  -- the stream reads a first page and a second one
  cases n with
  | zero =>
    cases hrun
    cases hcomplete
  | succ n =>
    rw [List.replicate_succ, run_cons, hstep, Option.bind_some] at hrun
    cases n with
    | zero =>
      cases hrun
      cases hcomplete
    | succ n =>
      obtain ⟨u, hu, hrun⟩ := run_cons_eq_some.mp hrun
      obtain ⟨more, hmore⟩ := emitted_isPrefix hlimit hrun
      have hnodup : t.emitted.Nodup := hperm.nodup_iff.mpr table.nodup
      obtain ⟨paging, second, hread, hsecond, hcases⟩ :=
        QueryStream.exists_page_of_step hlimit hu
      cases hread
      have hemitted : u.emitted =
          Keyset.page (byId col) batchSize.toNat table.rows none ++ second := by
        rcases hcases with ⟨_, rfl⟩ | ⟨_, rfl⟩ <;> simp [QueryStream.emitted]
      rw [hmore, hemitted] at hnodup
      have hdisjoint := List.disjoint_of_nodup_append (List.nodup_append.mp hnodup).1
      -- its first row comes again if it is not after `l`
      intro hrl
      obtain ⟨first, hfirst, hle⟩ := exists_le_of_passes hsecond hpos hr hpass
      refine hdisjoint ?_ hfirst
      refine Keyset.mem_page_of_not_before table.unique (List.mem_of_getLast? hlast)
        (mem_fetchPage hsecond hfirst).1 (fun _ h => by cases h) ?_
      intro hbefore
      exact hbefore (trans_of (byId col) hle hrl)

theorem not_mem_emitted {r : ResultRow col} (hpos : 0 < batchSize.toNat)
    (hlimit : batchSize.toNat < 2 ^ 63)
    (hcursor : ∀ l ∈ table.rows, passes col idCast l.cursor l.id = false) {n : Nat}
    (hrun : run (QueryStream.step batchSize) s (List.replicate n table.rows) = some t)
    (hs : r ∉ s.emitted ∧ ∀ paging, s.progress = .reading paging →
      paging.idCast = idCast ∧ passes col idCast paging.cursor r.id = false) :
    r ∉ t.emitted := by
  have hstates : ∀ rows ∈ List.replicate n table.rows, rows = table.rows :=
    fun rows => List.eq_of_mem_replicate
  refine ((meets_of_forall hstates).invariant (I := fun u => r ∉ u.emitted ∧
    ∀ paging, u.progress = .reading paging →
      paging.idCast = idCast ∧ passes col idCast paging.cursor r.id = false) ?_ hs hrun).1
  rintro u rows v ⟨hnot, hout⟩ rfl hstep
  obtain ⟨paging, page, hread, hpage, hcases⟩ := QueryStream.exists_page_of_step hlimit hstep
  obtain ⟨hcast, hrout⟩ := hout paging hread
  rw [hcast] at hpage
  have hrpage : r ∉ page := by
    intro hr
    rw [(mem_fetchPage hpage hr).2] at hrout
    cases hrout
  rcases hcases with ⟨_, rfl⟩ | ⟨hfull, rfl⟩
  · refine ⟨by simp [hnot, hrpage], ?_⟩
    rintro next ⟨⟩
  · refine ⟨by simp [hnot, hrpage], ?_⟩
    rintro next ⟨⟩
    refine ⟨hcast, ?_⟩
    have hne : page ≠ [] := by
      rintro rfl
      exact hfull hpos
    have hlast := mem_fetchPage hpage (List.getLast_mem hne)
    rw [List.getLast?_eq_some_getLast hne, Option.bind_some, Bool.eq_false_iff]
    intro hpass
    rw [passes_of_later hlast.2 (hcursor _ hlast.1) hpass] at hrout
    cases hrout

/-- If every batch size yields each row once, cursors are exact. -/
theorem cursorExact_of_emitsOnce
    (honce : ∀ batchSize : UInt64, 0 < batchSize → batchSize.toNat < 2 ^ 63 →
      EmitsOnce batchSize (start col detected) table.rows) :
    CursorExact col (detectIdCast (detectedType col detected)) (· ∈ table.rows) := by
  have hbefore {l r : ResultRow col} (hl : l ∈ table.rows) (hr : r ∈ table.rows)
      (hpass : passes col (detectIdCast (detectedType col detected)) l.cursor r.id = true) :
      Before (byId col) l r := by
    obtain ⟨batchSize, hpos, hlimit, hfull, hlast⟩ := table.exists_batchSize hl
    exact table.before_of_passes detected hpos hlimit hfull hlast
      (honce batchSize (UInt64.lt_iff_toNat_lt.mpr hpos) hlimit) hr hpass
  have hself (l : ResultRow col) (hl : l ∈ table.rows) :
      passes col (detectIdCast (detectedType col detected)) l.cursor l.id = false := by
    rw [Bool.eq_false_iff]
    intro hpass
    exact hbefore hl hl hpass (refl_of (byId col) l)
  intro l r hl hr
  cases hcursor : l.cursor with
  | none =>
    have hout := hself l hl
    rw [hcursor] at hout
    cases hout
  | some text =>
    refine ⟨text, rfl, ?_⟩
    rw [← hcursor]
    refine ⟨hbefore hl hr, ?_⟩
    intro hlr
    by_contra hpass
    obtain ⟨batchSize, hpos, hlimit, hfull, hlast⟩ := table.exists_batchSize hl
    obtain ⟨n, t, hrun, hcomplete, hperm⟩ :=
      honce batchSize (UInt64.lt_iff_toNat_lt.mpr hpos) hlimit
    cases n with
    | zero =>
      cases hrun
      cases hcomplete
    | succ n =>
      have hstep := table.step_start detected hlimit hfull
      rw [List.replicate_succ, run_cons, hstep, Option.bind_some] at hrun
      refine table.not_mem_emitted hpos hlimit hself hrun ⟨?_, ?_⟩ (hperm.mem_iff.mpr hr)
      · intro hmem
        have hpage : r ∈ Keyset.page (byId col) batchSize.toNat table.rows none := by
          simpa [QueryStream.emitted] using hmem
        exact hlr (Keyset.rel_getLast_of_mem_page hlast hpage)
      · rintro paging ⟨⟩
        rw [hlast, Option.bind_some]
        exact ⟨rfl, Bool.eq_false_iff.mpr hpass⟩

end KeyedTable

def numericTypes : List String :=
  ["smallint", "integer", "bigint", "numeric", "real", "double precision"]

/-- The JSON text of an id, read as a number, is below the ids after it and no others. -/
def SortsAsNumbers (rows : List (ResultRow col)) : Prop :=
  ∀ l ∈ rows, ∀ r ∈ rows, ∀ y ∈ r.id, ∃ text, rowIdAsString (col.jsonId l.id) = some text ∧
    (col.ofText text < col.numeric y ↔ Before (byId col) l r)

def SortsAsTexts (rows : List (ResultRow col)) : Prop :=
  ∀ l ∈ rows, ∀ r ∈ rows, ∀ y ∈ r.id, ∃ text, rowIdAsString (col.jsonId l.id) = some text ∧
    (col.sortKey text < col.sortKey (col.text y) ↔ Before (byId col) l r)

/-- Numbers if a row was there to show a numeric type at detection, texts otherwise. -/
def CursorsFit (detected rows : List (ResultRow col)) : Prop :=
  if detected ≠ [] ∧ col.typeName ∈ numericTypes then SortsAsNumbers rows else SortsAsTexts rows

omit [LinearOrder ν] [LinearOrder τ] in
theorem detectIdCast_detectedType (detected : List (ResultRow col)) :
    detectIdCast (detectedType col detected) =
      if detected ≠ [] ∧ col.typeName ∈ numericTypes then .numeric else .text := by
  cases detected with
  | nil => rfl
  | cons r rows =>
    by_cases htype : col.typeName ∈ numericTypes
    · rw [if_pos ⟨List.cons_ne_nil r rows, htype⟩]
      exact if_pos htype
    · rw [if_neg fun h => htype h.2]
      exact if_neg htype

theorem cursorExact_iff_cursorsFit (detected : List (ResultRow col)) (table : KeyedTable col) :
    CursorExact col (detectIdCast (detectedType col detected)) (· ∈ table.rows) ↔
      CursorsFit detected table.rows := by
  have hcut (idCast : IdCast) : CursorExact col idCast (· ∈ table.rows) ↔
      ∀ l ∈ table.rows, ∀ r ∈ table.rows, ∀ y ∈ r.id, ∃ text,
        rowIdAsString (col.jsonId l.id) = some text ∧
        (passes col idCast (some text) (some y) = true ↔ Before (byId col) l r) := by
    constructor
    · intro h l hl r hr y hy
      obtain ⟨text, htext, hpass⟩ := h l r hl hr
      rw [ResultRow.cursor_eq] at htext
      rw [show r.id = some y from hy] at hpass
      exact ⟨text, htext, hpass⟩
    · intro h l r hl hr
      obtain ⟨y, hy⟩ := table.nonNull r hr
      rw [ResultRow.cursor_eq, hy]
      exact h l hl r hr y hy
  rw [hcut, detectIdCast_detectedType, CursorsFit]
  split
  · simp [passes, SortsAsNumbers]
  · simp [passes, SortsAsTexts]

theorem cursorsFit_integer {τ : Type} [LinearOrder τ] {typeName : String} {sortKey : String → τ}
    {detected : List (ResultRow (integerColumn typeName sortKey))} (hdetected : detected ≠ [])
    (htype : typeName ∈ numericTypes) (table : KeyedTable (integerColumn typeName sortKey)) :
    CursorsFit detected table.rows := by
  rw [← cursorExact_iff_cursorsFit, detectIdCast_detectedType, if_pos ⟨hdetected, htype⟩]
  intro l r hl hr
  exact cursorExact_integer l r (table.nonNull l hl) (table.nonNull r hr)

/-- The filter and the order of the pages agree on the ids of a table, and every batch size that
fits in an `i64` yields each row once, exactly if the JSON texts of the ids fit the cast. Larger
batch sizes fail. -/
theorem filter_and_order_agree_iff (detected : List (ResultRow col)) (table : KeyedTable col) :
    (OrdersAgree (detectIdCast (detectedType col detected)) table.rows ∧
        (∀ batchSize : UInt64, 0 < batchSize → batchSize.toNat < 2 ^ 63 →
          EmitsOnce batchSize (start col detected) table.rows) ↔
      CursorsFit detected table.rows) ∧
    ∀ batchSize : UInt64, 2 ^ 63 ≤ batchSize.toNat →
      ¬EmitsOnce batchSize (start col detected) table.rows := by
  refine ⟨?_, ?_⟩
  · rw [← cursorExact_iff_cursorsFit]
    constructor
    · intro h
      exact table.cursorExact_of_emitsOnce detected h.2
    · intro hexact
      refine ⟨table.ordersAgree_of_cursorExact hexact, ?_⟩
      intro batchSize hpos hlimit
      exact table.emitsOnce_of_cursorExact detected hpos hlimit hexact
  · rintro batchSize hlimit ⟨n, t, hrun, hcomplete, _⟩
    exact QueryStream.not_complete_of_refused hlimit (by simp [start]) hrun hcomplete

/-- Two `bigint` rows come after the detection, and their ids are compared as texts: the row with
id 10 is not after the cursor `2`. -/
theorem row_dropped_when_empty_at_detection :
    ∃ t, run (QueryStream.step 1) (start _ (idRows "bigint" cCollation []))
        (List.replicate 2 (idRows "bigint" cCollation [2, 10])) = some t ∧
      t.isComplete = true ∧ t.emitted.map (·.id) = [some 2] ∧
      castLt (integerColumn "bigint" cCollation) .text 10 2 := by
  refine ⟨_, rfl, ?_, ?_, ?_⟩
  · decide
  · decide
  · decide

def Ends (batchSize : UInt64) (s : QueryStream col) (states : Nat → List (ResultRow col)) : Prop :=
  ∃ n t, run (QueryStream.step batchSize) s ((List.range n).map states) = some t ∧
    t.progress = .complete

/-- If the next page is full, the cursor that it leaves excludes its last row; so there is one. -/
def Advances (batchSize : UInt64) (s : QueryStream col) (rows : List (ResultRow col)) : Prop :=
  ∀ paging page, s.progress = .reading paging →
    fetchPage rows paging.cursor batchSize paging.idCast = some page →
    page.length = batchSize.toNat →
    ∀ l ∈ page.getLast?, passes col paging.idCast l.cursor l.id = false

def left (rows : List (ResultRow col)) (s : QueryStream col) : Nat :=
  match s.progress with
  | .reading paging => rows.countP fun r => passes col paging.idCast paging.cursor r.id
  | .complete | .failed => 0

theorem left_le (rows : List (ResultRow col)) (s : QueryStream col) :
    left rows s ≤ rows.length := by
  rw [left]
  split
  · exact List.countP_le_length
  · exact Nat.zero_le _
  · exact Nat.zero_le _

private theorem countP_lt {ρ : Type} {p q : ρ → Bool} {xs : List ρ} {a : ρ}
    (hsub : ∀ x ∈ xs, p x = true → q x = true) (ha : a ∈ xs) (hq : q a = true)
    (hp : p a = false) : xs.countP p < xs.countP q := by
  have hfilter : xs.countP p = (xs.filter q).countP p := by
    rw [List.countP_filter]
    refine List.countP_congr ?_
    intro x hx
    simpa using hsub x hx
  rw [hfilter, List.countP_eq_length_filter (p := q), List.countP_lt_length_iff]
  exact ⟨a, List.mem_filter.mpr ⟨ha, hq⟩, hp⟩

/-- A page that is not the last one leaves fewer rows. -/
theorem complete_or_left_lt {state : List (ResultRow col)} (hpos : 0 < batchSize.toNat)
    (hlimit : batchSize.toNat < 2 ^ 63) (hstate : state.Perm rows)
    (hadvances : Advances batchSize s state) (hstep : s.step batchSize state = some t) :
    t.progress = .complete ∨ left rows t < left rows s := by
  obtain ⟨paging, page, hread, hpage, ⟨_, rfl⟩ | ⟨hfull, rfl⟩⟩ :=
    QueryStream.exists_page_of_step hlimit hstep
  · exact Or.inl rfl
  · right
    have hlength : page.length = batchSize.toNat := by
      obtain ⟨_, rfl⟩ := fetchPage_eq_some.mp hpage
      rw [List.length_take] at hfull ⊢
      omega
    have hne : page ≠ [] := by
      rintro rfl
      exact hfull hpos
    have hlast := List.getLast?_eq_some_getLast hne
    have hout := hadvances paging page hread hpage hlength _ hlast
    obtain ⟨hmem, hin⟩ := mem_fetchPage hpage (List.getLast_mem hne)
    simp only [left, hread, hlast, Option.bind_some]
    exact countP_lt (fun r _ => passes_of_later hin hout) (hstate.mem_iff.mp hmem) hin hout

/-- If every page advances, the stream ends, in whatever order the database reads the rows. -/
theorem ends_of_advances {states : Nat → List (ResultRow col)} (hpos : 0 < batchSize.toNat)
    (hlimit : batchSize.toNat < 2 ^ 63) (hstates : ∀ k, (states k).Perm rows)
    {paging : Paging} (hread : s.progress = .reading paging)
    (hadvances : ∀ n t, run (QueryStream.step batchSize) s ((List.range n).map states) = some t →
      Advances batchSize t (states n)) : Ends batchSize s states := by
  by_contra hnever
  -- the rows left get fewer with every page
  have hleft (n : Nat) : ∃ t, run (QueryStream.step batchSize) s ((List.range n).map states) =
      some t ∧ (∃ paging, t.progress = .reading paging) ∧ left rows t + n ≤ rows.length := by
    induction n with
    | zero => exact ⟨s, rfl, ⟨paging, hread⟩, left_le rows s⟩
    | succ n ih =>
      obtain ⟨t, hrun, ⟨paging, hpaging⟩, hle⟩ := ih
      obtain ⟨u, hu⟩ : ∃ u, t.step batchSize (states n) = some u := by
        simp only [QueryStream.step, hpaging]
        split <;> exact ⟨_, rfl⟩
      have hrun' : run (QueryStream.step batchSize) s ((List.range (n + 1)).map states) =
          some u := by
        rw [List.range_succ, List.map_append, run_append, hrun, List.map_singleton,
          Option.bind_some, run_cons, hu]
        rfl
      have hnot : u.progress ≠ .complete := fun hcomplete => hnever ⟨n + 1, u, hrun', hcomplete⟩
      refine ⟨u, hrun', ?_, ?_⟩
      · obtain ⟨_, _, _, _, ⟨_, rfl⟩ | ⟨_, rfl⟩⟩ := QueryStream.exists_page_of_step hlimit hu
        · exact absurd rfl hnot
        · exact ⟨_, rfl⟩
      · rcases complete_or_left_lt hpos hlimit (hstates n) (hadvances n t hrun) hu with hend | hlt
        · exact absurd hend hnot
        · omega
  obtain ⟨t, _, _, hle⟩ := hleft (rows.length + 1)
  omega

def place (s : QueryStream col) : Progress :=
  match s.progress with
  | .reading paging => .reading { paging with offset := 0 }
  | .complete => .complete
  | .failed => .failed

private def placeStep (batchSize : UInt64) (p : Progress) (rows : List (ResultRow col)) :
    Option Progress :=
  ((⟨[], p⟩ : QueryStream col).step batchSize rows).map place

private theorem map_place_step (rows : List (ResultRow col)) :
    (s.step batchSize rows).map place = placeStep batchSize (place s) rows := by
  cases hread : s.progress with
  | complete | failed => simp [QueryStream.step, placeStep, place, hread]
  | reading paging =>
    simp only [placeStep, place, hread, QueryStream.step, readPage]
    cases fetchPage rows paging.cursor batchSize paging.idCast with
    | none => rfl
    | some page =>
      by_cases hshort : page.length < batchSize.toNat
      · simp [hshort, place]
      · simp [hshort, place]

theorem not_complete_of_restart {m : Nat} {u : QueryStream col}
    (hrestart : run (QueryStream.step batchSize) s (List.replicate (m + 1) rows) = some u)
    (hplace : place u = place s) (n : Nat)
    (hrun : run (QueryStream.step batchSize) s (List.replicate n rows) = some t) :
    t.progress ≠ .complete := by
  have hmap (k : Nat) : (run (QueryStream.step batchSize) s (List.replicate k rows)).map place =
      run (placeStep batchSize) (place s) (List.replicate k rows) :=
    map_run (I := fun _ => True) (P := fun _ => True) (fun _ _ _ _ _ _ => trivial)
      (fun s rows _ _ => map_place_step rows) trivial fun _ _ => trivial
  intro hcomplete
  have hcycle : run (placeStep batchSize) (place s) (List.replicate (m + 1) rows) =
      some (place s) := by
    rw [← hmap, hrestart, Option.map_some, hplace]
  obtain ⟨p, hp⟩ := exists_run_of_cycle hcycle (n + 1)
  rw [← hmap, List.replicate_succ', run_append, hrun, Option.bind_some, run_cons] at hp
  simp [QueryStream.step, hcomplete] at hp

theorem idCast_of_run {states : List (List (ResultRow col))} {detected : List (ResultRow col)}
    (hlimit : batchSize.toNat < 2 ^ 63)
    (hrun : run (QueryStream.step batchSize) (start col detected) states = some t)
    {paging : Paging} (hread : t.progress = .reading paging) :
    paging.idCast = detectIdCast (detectedType col detected) := by
  refine run_invariant (I := fun u : QueryStream col => ∀ paging, u.progress = .reading paging →
    paging.idCast = detectIdCast (detectedType col detected)) ?_ ?_ hrun paging hread
  · intro u rows v hu hstep next hnext
    obtain ⟨paging, page, hpaging, _, ⟨_, rfl⟩ | ⟨_, rfl⟩⟩ :=
      QueryStream.exists_page_of_step hlimit hstep
    · cases hnext
    · cases hnext
      exact hu paging hpaging
  · rintro paging ⟨⟩
    rfl

theorem not_ends_of_no_cursor {detected page : List (ResultRow col)} {n : Nat} {paging : Paging}
    (hlimit : batchSize.toNat < 2 ^ 63)
    (hrun : run (QueryStream.step batchSize) (start col detected) (List.replicate n rows) =
      some t)
    (hread : t.progress = .reading paging)
    (hpage : fetchPage rows paging.cursor batchSize paging.idCast = some page)
    (hfull : ¬page.length < batchSize.toNat) (hnone : page.getLast?.bind ResultRow.cursor = none) :
    ¬Ends batchSize (start col detected) fun _ => rows := by
  rintro ⟨k, u, hends, hcomplete⟩
  rw [map_range_const] at hends
  refine not_complete_of_restart (m := n) (u := ⟨t.batches ++ [⟨page, paging.offset, false⟩],
    .reading { paging with cursor := none, offset := paging.offset + 1 }⟩) ?_ ?_ k hends hcomplete
  · rw [List.replicate_succ', run_append, hrun, Option.bind_some, run_cons,
      QueryStream.step_of_full hread hpage hfull, hnone]
    rfl
  · simp [place, start, idCast_of_run hlimit hrun hread]

/-- A stream over unchanged rows ends if every page advances. Where the cursor of a row never lets
the row itself through, it ends only if the batch size is at least one and fits in an `i64` and
every page advances. -/
theorem stream_ends_iff (detected rows : List (ResultRow col)) (batchSize : UInt64) :
    (∀ states : Nat → List (ResultRow col), (∀ k, (states k).Perm rows) →
      0 < batchSize.toNat → batchSize.toNat < 2 ^ 63 →
      (∀ n t, run (QueryStream.step batchSize) (start col detected) ((List.range n).map states) =
        some t → Advances batchSize t (states n)) →
      Ends batchSize (start col detected) states) ∧
    ((∀ r ∈ rows, ∀ text ∈ r.cursor,
        passes col (detectIdCast (detectedType col detected)) (some text) r.id = false) →
      (Ends batchSize (start col detected) (fun _ => rows) ↔
        0 < batchSize.toNat ∧ batchSize.toNat < 2 ^ 63 ∧
        ∀ n t, run (QueryStream.step batchSize) (start col detected) (List.replicate n rows) =
          some t → Advances batchSize t rows)) := by
  refine ⟨?_, ?_⟩
  · intro states hstates hpos hlimit hadvances
    exact ends_of_advances hpos hlimit hstates rfl hadvances
  · intro hself
    constructor
    · intro hends
      have hlimit : batchSize.toNat < 2 ^ 63 := by
        by_contra hlarge
        obtain ⟨n, t, hrun, hcomplete⟩ := hends
        exact QueryStream.not_complete_of_refused (not_lt.mp hlarge) (by simp [start]) hrun
          hcomplete
      refine ⟨?_, hlimit, ?_⟩
      · by_contra hzero
        have hsize : batchSize.toNat = 0 := Nat.eq_zero_of_not_pos hzero
        have hpage : fetchPage rows none batchSize
            (detectIdCast (detectedType col detected)) = some [] :=
          fetchPage_eq_some.mpr ⟨hlimit, by simp [hsize]⟩
        exact not_ends_of_no_cursor (n := 0) (t := start col detected)
          hlimit rfl rfl hpage (by simp [hsize]) rfl hends
      · intro n t hrun paging page hread hpage hlength l hl
        rw [Bool.eq_false_iff]
        intro hpass
        have hmem := (mem_fetchPage hpage (List.mem_of_getLast? hl)).1
        cases hcursor : l.cursor with
        | none =>
          refine not_ends_of_no_cursor hlimit hrun hread hpage (by omega) ?_ hends
          rw [show page.getLast? = some l from hl]
          exact hcursor
        | some text =>
          rw [hcursor, idCast_of_run hlimit hrun hread, hself l hmem text hcursor] at hpass
          cases hpass
    · intro h
      obtain ⟨hpos, hlimit, hadvances⟩ := h
      refine ends_of_advances hpos hlimit (fun _ => List.Perm.refl rows) rfl ?_
      intro n t hrun
      rw [map_range_const] at hrun
      exact hadvances n t hrun

theorem advances_of_excluded {states : List (List (ResultRow col))}
    {detected : List (ResultRow col)} (hlimit : batchSize.toNat < 2 ^ 63)
    (hself : ∀ r ∈ rows,
      passes col (detectIdCast (detectedType col detected)) r.cursor r.id = false)
    (hrun : run (QueryStream.step batchSize) (start col detected) states = some t) :
    Advances batchSize t rows := by
  intro paging page hread hpage _ l hl
  rw [idCast_of_run hlimit hrun hread]
  exact hself l (mem_fetchPage hpage (List.mem_of_getLast? hl)).1

theorem integer_excluded {τ : Type} [LinearOrder τ] {typeName : String} {sortKey : String → τ}
    {r : ResultRow (integerColumn typeName sortKey)} (h : ∃ x, r.id = some x) :
    passes (integerColumn typeName sortKey) .numeric r.cursor r.id = false := by
  obtain ⟨text, htext, hcut⟩ := cursorExact_integer r r h h
  rw [htext, Bool.eq_false_iff]
  intro hpass
  exact hcut.mp hpass (refl_of (byId _) r)

theorem stream_ends_three_rows : Ends 2 (start _ (idRows "bigint" cCollation [5, 3, 9]))
    fun _ => idRows "bigint" cCollation [5, 3, 9] := by
  refine (stream_ends_iff _ _ 2).1 _ (fun _ => List.Perm.refl _) (by decide) (by decide) ?_
  intro n t hrun
  refine advances_of_excluded (by decide) ?_ hrun
  intro r hr
  obtain ⟨x, _, rfl⟩ := List.mem_map.mp hr
  exact integer_excluded ⟨x, rfl⟩

/-- A page of one row whose id is null leaves no cursor, and a batch size of zero never sees a
short page: both streams read their first page again and again. -/
theorem stream_never_ends :
    (¬Ends 1 (start (integerColumn "bigint" cCollation) [])
      fun _ => [⟨none, .object [("id", .null)], rfl⟩]) ∧
    ¬Ends 0 (start (integerColumn "bigint" cCollation) []) fun _ => [] := by
  refine ⟨?_, ?_⟩
  · exact not_ends_of_no_cursor (n := 0) (t := start _ []) (by decide) rfl rfl rfl (by decide) rfl
  · exact not_ends_of_no_cursor (n := 0) (t := start _ []) (by decide) rfl rfl rfl (by decide) rfl

end EntitySync.Snapshot
