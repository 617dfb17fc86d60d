import EntitySync.Oplog.Lifetime
import EntitySync.Protocol.Wire
import Mathlib.Data.FinEnum
import Mathlib.Data.W.Basic
import Mathlib.Logic.Equiv.List
import Mathlib.Tactic.DeriveCountable

/-!
# Stored envelopes in MessagePack

The op log stores its envelopes with `rmp_serde::to_vec`, which writes a struct as the array of its
fields. So the second of an append stands at the end of the payload.
-/

namespace EntitySync.Oplog

open MsgPack (FloatLayout)

variable {layout : FloatLayout}

/-- `BucketOp` in the compact encoding. -/
def opItem (op : BucketOp) : MsgPack.Value := .array (op.fields.map Prod.snd)

def StoredOp.write (stored : StoredOp) : MsgPack.Value :=
  .array [opItem stored.op, .uint stored.appendedAtUnixSecs.toNat]

def StoredOp.fieldNames : List String := ["op", "appended_at_unix_secs"]

def StoredOp.read (depth : Nat) (v : MsgPack.Value) : Except MsgPack.DecodeError StoredOp := do
  let fields ← MsgPack.readFields StoredOp.fieldNames depth v
  return {
    op := ← fields.required "op" BucketOp.read
    appendedAtUnixSecs := ← fields.required "appended_at_unix_secs" readU64 }

/-- The op has a row that can be JSON, nested below the depth limit, and its numbers and lengths
have room. -/
def Storable (layout : FloatLayout) (op : BucketOp) : Prop :=
  op.op.WellFormed (depthLimit - 2) ∧ (opItem op).Fits layout

theorem storable_of_fits {op : BucketOp} (hrow : op.op.WellFormed (depthLimit - 2))
    (hbucket : (MsgPack.Value.str op.bucketId.val).Fits layout)
    (htype : (MsgPack.Value.str op.entityType).Fits layout)
    (hid : (MsgPack.Value.str op.entityId).Fits layout) (hop : op.op.write.Fits layout) :
    Storable layout op := by
  refine ⟨hrow, MsgPack.fits_array (by simp [BucketOp.fields]) ?_⟩
  simp only [BucketOp.fields, List.map_cons, List.map_nil, List.forall_mem_cons]
  exact ⟨fits_u64 _, hbucket, htype, hid, hop, by simp⟩

theorem read_opItem {depth : Nat} {op : BucketOp} (h : op.op.WellFormed (depth + 2)) :
    BucketOp.read (depth + 3) (opItem op) = .ok op := by
  simp [BucketOp.read, opItem, BucketOp.fields, BucketOp.fieldNames, MsgPack.readFields,
    MsgPack.enter, MsgPack.Fields.required, List.lookup_cons, Op.read_write h]

theorem StoredOp.read_write {depth : Nat} {stored : StoredOp}
    (h : stored.op.op.WellFormed (depth + 2)) :
    StoredOp.read (depth + 4) stored.write = .ok stored := by
  simp [StoredOp.read, StoredOp.write, StoredOp.fieldNames, MsgPack.readFields, MsgPack.enter,
    MsgPack.Fields.required, List.lookup_cons, read_opItem h]

theorem Storable.fits {op : BucketOp} (h : Storable layout op) (now : UInt64) :
    (StoredOp.write ⟨op, now⟩).Fits layout := by
  refine MsgPack.fits_array (by decide : 2 < 256 ^ 4) ?_
  simp only [List.forall_mem_cons]
  exact ⟨h.2, fits_u64 now, by simp⟩

theorem Storable.decodeBytes_write {stored : StoredOp} (h : Storable layout stored.op) :
    decodeBytes layout (StoredOp.read depthLimit) (stored.write.bytes layout) = .ok stored := by
  have hop : stored.op.op.WellFormed (1020 + 2) := h.1
  have hframe := (decodeBytes_frames (h.fits _) (StoredOp.read_write hop)).1 []
  rwa [List.append_nil] at hframe

/-! ## The codec

A `Codec` has to give back every envelope of the model, also one that is not MessagePack. Those get
payloads behind the marker `0xc1`, which the format does not use. -/

section Countable

open Json

instance countableChar : Countable Char :=
  Function.Injective.countable fun (_ _ : Char) => Char.toNat_inj.mp

instance countableString : Countable String :=
  Function.Injective.countable fun (_ _ : String) => String.toList_inj.mp

deriving instance Countable for Json.Number

/-- The node of a JSON value, without the values below it. -/
inductive Label where
  | null
  | bool (b : Bool)
  | number (n : Number)
  | string (s : String)
  | array (length : Nat)
  | object (keys : List String)
deriving Countable

def Label.arity : Label → Nat
  | .array length => length
  | .object keys => keys.length
  | .null | .bool _ | .number _ | .string _ => 0

def ofTree : WType (fun label : Label => Fin label.arity) → Value
  | .mk .null _ => .null
  | .mk (.bool b) _ => .bool b
  | .mk (.number n) _ => .number n
  | .mk (.string s) _ => .string s
  | .mk (.array _) below => .array (List.ofFn fun i => ofTree (below i))
  | .mk (.object keys) below => .object (List.ofFn fun i => (keys.get i, ofTree (below i)))

theorem ofTree_surjective : ∀ v : Value, ∃ tree, ofTree tree = v
  | .null => ⟨.mk .null nofun, rfl⟩
  | .bool b => ⟨.mk (.bool b) nofun, rfl⟩
  | .number n => ⟨.mk (.number n) nofun, rfl⟩
  | .string s => ⟨.mk (.string s) nofun, rfl⟩
  | .array items => by
    have hitems (i : Fin items.length) : ∃ tree, ofTree tree = items.get i :=
      ofTree_surjective (items.get i)
    choose below hbelow using hitems
    refine ⟨.mk (.array items.length) below, ?_⟩
    show Value.array (List.ofFn fun i => ofTree (below i)) = _
    rw [funext hbelow, List.ofFn_get]
  | .object fields => by
    have hfields (i : Fin fields.length) : ∃ tree, ofTree tree = (fields.get i).2 :=
      ofTree_surjective (fields.get i).2
    choose below hbelow using hfields
    refine ⟨.mk (.object (fields.map Prod.fst)) fun i => below (i.cast (by simp [Label.arity])), ?_⟩
    simp only [ofTree, hbelow]
    apply congrArg Value.object
    apply List.ext_get
    · simp [Label.arity]
    · intro n _ _
      simp only [List.get_eq_getElem, List.getElem_ofFn, List.getElem_map]
      rfl
termination_by v => sizeOf v
decreasing_by
  · have hlt := List.sizeOf_get items i
    simp only [Value.array.sizeOf_spec]
    omega
  · have hlt := List.sizeOf_get fields i
    have hpair : sizeOf (fields.get i) = 1 + sizeOf (fields.get i).1 + sizeOf (fields.get i).2 := by
      rw [← Prod.mk.sizeOf_spec]
    simp only [Value.object.sizeOf_spec]
    omega

instance : Countable Value :=
  have := fun label : Label => Encodable.ofCountable (Fin label.arity)
  have := Encodable.ofCountable Label
  Function.Surjective.countable ofTree_surjective

end Countable

deriving instance Countable for BucketId, Op, BucketOp, StoredOp

noncomputable instance : Encodable StoredOp := Encodable.ofCountable StoredOp

open Classical in
/-- `to_vec` and `from_slice`, on the storable envelopes. -/
noncomputable def Codec.msgPack (layout : FloatLayout) : Codec where
  toVec stored :=
    if Storable layout stored.op then stored.write.bytes layout
    else 0xc1 :: List.replicate (Encodable.encode stored) 0
  fromSlice raw :=
    match decodeBytes layout (StoredOp.read depthLimit) raw with
    | .ok stored => .ok stored
    | .error _ => (Encodable.decode (raw.length - 1)).elim (.error "invalid envelope") .ok
  fromSlice_toVec stored := by
    by_cases h : Storable layout stored.op
    · simp only [if_pos h, h.decodeBytes_write]
    · have hunused (rest : Bytes) : decodeBytes layout (StoredOp.read depthLimit) (0xc1 :: rest) =
          .error .malformed := rfl
      simp [if_neg h, hunused]

def Codec.Compact (layout : FloatLayout) (codec : Codec) : Prop :=
  ∀ stored, Storable layout stored.op → codec.toVec stored = stored.write.bytes layout

theorem Codec.compact_msgPack (layout : FloatLayout) : (Codec.msgPack layout).Compact layout :=
  fun _ h => if_pos h

/-! ## The second at the end -/

theorem bytes_write (op : BucketOp) (now : UInt64) :
    (StoredOp.write ⟨op, now⟩).bytes layout =
      MsgPack.arrayHead 2 ++ (opItem op).bytes layout ++ MsgPack.uintHead now.toNat := by
  simp [StoredOp.write, MsgPack.Value.bytes, MsgPack.itemBytes, MsgPack.Head.bytes]

/-- Appended in an even second and in the next one, an op has payloads that differ in their last
byte only. -/
theorem Codec.Compact.differAtEnd {codec : Codec} (hcodec : codec.Compact layout) {op : BucketOp}
    (hop : Storable layout op) {now : UInt64} (heven : now % 2 = 0) :
    MsgPack.DifferAtEnd (codec.toVec ⟨op, now⟩) (codec.toVec ⟨op, now + 1⟩) := by
  have hmod : now.toNat % 2 = 0 := by simpa using congrArg UInt64.toNat heven
  have hsucc : (now + 1).toNat = now.toNat + 1 := by
    have hlt := now.toNat_lt
    rw [UInt64.toNat_add]
    simp
    omega
  rw [hcodec _ hop, hcodec _ hop, bytes_write, bytes_write, hsucc,
    show now.toNat = 2 * (now.toNat / 2) by omega]
  exact (MsgPack.differAtEnd_uintHead _).append _

end EntitySync.Oplog
