import Mathlib
import EntitySync.Client.SyncClient
import EntitySync.Library.Binary64
import EntitySync.Protocol.Codec

/-!
# The client's codec

`decodeServer` and `encodeClient` of the TypeScript packages are `decode` and `encode` of
`@msgpack/msgpack` with their defaults: every integer becomes the nearest double, only safe
integers are encoded as integers, binary data is a `Uint8Array` and an array stays an array. The
server's codec writes a `Vec<u8>` as an array of integers.
-/

namespace EntitySync.Client

open MsgPack (Float64)
open Binary64 (Exact nearest shortest)

/-- A JavaScript number: a double with an integer value, or any other double. -/
inductive JsNumber where
  | integer (n : Int)
  | other (x : Float64)
deriving DecidableEq

/-- The values that `decode` returns. An object is the list of its properties as they were
assigned. -/
inductive JsValue where
  | null
  | bool (b : Bool)
  | number (x : JsNumber)
  | string (s : String)
  | uint8Array (bytes : List UInt8)
  | array (items : List JsValue)
  | object (properties : List (String × JsValue))
  | extData (kind : Int) (bytes : List UInt8)

inductive JsDecodeError where
  /-- The key `__proto__` is not allowed. -/
  | protoKey
  /-- A key is neither a string nor a number. -/
  | keyType
deriving DecidableEq

namespace JsNumber

def ofInt (n : Int) : JsNumber := .integer (n.sign * nearest n.natAbs)

/-- `String(x)`; an integer below `10 ^ 21` is printed without exponent. -/
def toText : JsNumber → String
  | .integer n => (n.sign * shortest n.natAbs).repr
  | .other (.finite text) => text
  | .other (.infinite negative) => if negative then "-Infinity" else "Infinity"
  | .other .nan => "NaN"

/-- `Number(text)` for the text of an integer. -/
def ofText (text : String) : JsNumber :=
  match text.toInt? with
  | some n => .ofInt n
  | none => .other .nan

def isSafeInteger : JsNumber → Bool
  | .integer n => n.natAbs ≤ maxSafeInteger.toNat
  | .other _ => false

end JsNumber

theorem JsNumber.ofInt_natCast (n : Nat) : ofInt n = .integer (nearest n) := by
  rcases Nat.eq_zero_or_pos n with rfl | hn
  · rfl
  · rw [ofInt, Int.sign_eq_one_of_pos (by omega), one_mul, Int.natAbs_natCast]

theorem JsNumber.ofInt_eq_iff {n : Nat} : ofInt n = .integer n ↔ Exact n := by
  rw [ofInt_natCast, ← Binary64.nearest_eq_self_iff]
  simp

theorem JsNumber.ofInt_of_lt {n : Nat} (h : n < 2 ^ 53) : ofInt n = .integer n := by
  rw [ofInt_natCast, Binary64.nearest_of_lt h]

section
-- The integer that the decimal text of a double denotes, if it is one.
variable (wholeOf : String → Option Int)

def JsNumber.ofFloat (x : Float64) : JsNumber :=
  match x with
  | .finite text => ((wholeOf text).map JsNumber.integer).getD (.other x)
  | .infinite _ | .nan => .other x

def decodeKey : MsgPack.Value → Except JsDecodeError String
  | .str s => if s = "__proto__" then .error .protoKey else .ok s
  | .uint n => .ok (JsNumber.ofInt n).toText
  | .sint n => .ok (JsNumber.ofInt n).toText
  | .float x => .ok (JsNumber.ofFloat wholeOf x).toText
  | .nil | .bool _ | .bin _ | .array _ | .map _ | .ext _ _ => .error .keyType

mutual
/-- `decode` of `@msgpack/msgpack`. -/
def decode : MsgPack.Value → Except JsDecodeError JsValue
  | .nil => .ok .null
  | .bool b => .ok (.bool b)
  | .uint n => .ok (.number (.ofInt n))
  | .sint n => .ok (.number (.ofInt n))
  | .float x => .ok (.number (.ofFloat wholeOf x))
  | .str s => .ok (.string s)
  | .bin bytes => .ok (.uint8Array bytes)
  | .ext kind bytes => .ok (.extData kind bytes)
  | .array items => return .array (← decodeItems items)
  | .map entries => return .object (← decodeEntries entries)

def decodeItems : List MsgPack.Value → Except JsDecodeError (List JsValue)
  | [] => .ok []
  | v :: vs => return (← decode v) :: (← decodeItems vs)

def decodeEntries : List (MsgPack.Value × MsgPack.Value) →
    Except JsDecodeError (List (String × JsValue))
  | [] => .ok []
  | (key, v) :: es => return (← decodeKey wholeOf key, ← decode v) :: (← decodeEntries es)
end

def decodeServer (bytes : MsgPack.Value) : Except JsDecodeError JsValue := decode wholeOf bytes

mutual
/-- What `JSON.parse` makes of a JSON value. -/
def ofJson : Json.Value → JsValue
  | .null => .null
  | .bool b => .bool b
  | .number (.int n) => .number (.ofInt n)
  | .number (.float text) => .number (.ofFloat wholeOf (.finite text))
  | .string s => .string s
  | .array items => .array (ofJsonItems items)
  | .object fields => .object (ofJsonFields fields)

def ofJsonItems : List Json.Value → List JsValue
  | [] => []
  | v :: vs => ofJson v :: ofJsonItems vs

def ofJsonFields : List (String × Json.Value) → List (String × JsValue)
  | [] => []
  | (k, v) :: vs => (k, ofJson v) :: ofJsonFields vs
end

end

def encodeNumber (x : JsNumber) : MsgPack.Value :=
  match x with
  | .integer n =>
    if x.isSafeInteger then if 0 ≤ n then .uint n.toNat else .sint n
    else .float (.finite x.toText)
  | .other x => .float x

mutual
/-- `encode` of `@msgpack/msgpack`, for values within its depth limit. -/
def encode : JsValue → MsgPack.Value
  | .null => .nil
  | .bool b => .bool b
  | .number x => encodeNumber x
  | .string s => .str s
  | .uint8Array bytes => .bin bytes
  | .extData kind bytes => .ext kind bytes
  | .array items => .array (encodeItems items)
  | .object properties => .map (encodeProperties properties)

def encodeItems : List JsValue → List MsgPack.Value
  | [] => []
  | v :: vs => encode v :: encodeItems vs

def encodeProperties : List (String × JsValue) → List (MsgPack.Value × MsgPack.Value)
  | [] => []
  | (name, v) :: vs => (.str name, encode v) :: encodeProperties vs
end

def encodeClient (msg : JsValue) : MsgPack.Value := encode msg

def ackMessage (lsn : JsNumber) : JsValue := .object [("Ack", .object [("lsn", .number lsn)])]

def subscribeMessage (buckets : List String) (token : String) (lastLsn : Option String) :
    JsValue :=
  .object [("Subscribe", .object [
    ("buckets", .array (buckets.map .string)),
    ("token", .string token),
    ("resume_lsn", match lastLsn with
      | none => .null
      | some text => .number (.ofText text)),
    ("protocol_version", .number (.integer protocolVersion.toNat))])]

section
variable (wholeOf : String → Option Int)

/-- A message as `messages.ts` declares it, given how its `u64` fields and its patches stand. -/
def opShape (patch : List UInt8 → JsValue) : Op → JsValue
  | .upsert row => .object [("Upsert", ofJson wholeOf row)]
  | .delete => .string "Delete"
  | .crdtPatch bytes => .object [("CrdtPatch", patch bytes)]

def bucketOpShape (u64 : UInt64 → JsNumber) (patch : List UInt8 → JsValue) (op : BucketOp) :
    JsValue :=
  .object [("lsn", .number (u64 op.lsn)), ("bucket_id", .string op.bucketId.val),
    ("entity_type", .string op.entityType), ("entity_id", .string op.entityId),
    ("op", opShape wholeOf patch op.op)]

def shape (u64 : UInt64 → JsNumber) (patch : List UInt8 → JsValue) : ServerMessage → JsValue
  | .snapshotBegin bucketId totalRows protocolVersion =>
    .object [("SnapshotBegin", .object [("bucket_id", .string bucketId.val),
      ("total_rows", .number (u64 totalRows)),
      ("protocol_version", .number (.integer protocolVersion.toNat))])]
  | .snapshotBatch bucketId rows offset =>
    .object [("SnapshotBatch", .object [("bucket_id", .string bucketId.val),
      ("rows", .array (rows.map (ofJson wholeOf))), ("offset", .number (u64 offset))])]
  | .snapshotComplete bucketId checksum =>
    .object [("SnapshotComplete", .object [("bucket_id", .string bucketId.val),
      ("checksum", .number (u64 checksum))])]
  | .delta bucketId ops lsn =>
    .object [("Delta", .object [("bucket_id", .string bucketId.val),
      ("ops", .array (ops.map (bucketOpShape wholeOf u64 patch))), ("lsn", .number (u64 lsn))])]
  | .checkpoint lsn bucketChecksums =>
    .object [("Checkpoint", .object [("lsn", .number (u64 lsn)),
      ("bucket_checksums", .object (bucketChecksums.entries.map fun e =>
        (e.1.val, .number (u64 e.2))))])]
  | .keepalive serverTimeMs =>
    .object [("Keepalive", .object [("server_time_ms", .number (u64 serverTimeMs))])]
  | .error code message =>
    .object [("Error", .object [("code", .number (.integer code.toNat)),
      ("message", .string message)])]

/-- The message field by field: every integer has its value, every patch is a `Uint8Array`. -/
def mirror : ServerMessage → JsValue := shape wholeOf (fun n => .integer n.toNat) .uint8Array

end

mutual
def protoFree : Json.Value → Bool
  | .array items => protoFreeItems items
  | .object fields => protoFreeFields fields
  | .null | .bool _ | .number _ | .string _ => true

def protoFreeItems : List Json.Value → Bool
  | [] => true
  | v :: vs => protoFree v && protoFreeItems vs

def protoFreeFields : List (String × Json.Value) → Bool
  | [] => true
  | (k, v) :: vs => k ≠ "__proto__" && protoFree v && protoFreeFields vs
end

def u64Fields : ServerMessage → List UInt64
  | .snapshotBegin _ totalRows _ => [totalRows]
  | .snapshotBatch _ _ offset => [offset]
  | .snapshotComplete _ checksum => [checksum]
  | .delta _ ops lsn => lsn :: ops.map (·.lsn)
  | .checkpoint lsn bucketChecksums => lsn :: bucketChecksums.entries.map (·.2)
  | .keepalive serverTimeMs => [serverTimeMs]
  | .error _ _ => []

def receivedLsns : ServerMessage → List PgLsn
  | .delta _ ops lsn => lsn :: ops.map (·.lsn)
  | .checkpoint lsn _ => [lsn]
  | .snapshotBegin _ _ _ | .snapshotBatch _ _ _ | .snapshotComplete _ _ | .keepalive _
  | .error _ _ => []

def isCrdtPatch : Op → Bool
  | .crdtPatch _ => true
  | .upsert _ | .delete => false

def carriesPatch : ServerMessage → Bool
  | .delta _ ops _ => ops.any fun op => isCrdtPatch op.op
  | _ => false

def opProtoFree : Op → Bool
  | .upsert row => protoFree row
  | .delete | .crdtPatch _ => true

def protoFreeMessage : ServerMessage → Bool
  | .snapshotBatch _ rows _ => rows.all protoFree
  | .delta _ ops _ => ops.all fun op => opProtoFree op.op
  | .checkpoint _ bucketChecksums => bucketChecksums.entries.all (·.1.val ≠ "__proto__")
  | .snapshotBegin _ _ _ | .snapshotComplete _ _ | .keepalive _ | .error _ _ => true

/-- The value, unless a key on the way to it is rejected. -/
def guarded {α : Type} (free : Bool) (a : α) : Except JsDecodeError α :=
  if free then .ok a else .error .protoKey

section
variable {α β : Type} {b c : Bool} {a : α}

theorem guarded_bind_pure {f : α → β} :
    (guarded b a >>= fun x => pure (f x)) = guarded b (f a) := by
  cases b <;> rfl

theorem guarded_bind {f : α → β} :
    (guarded b a >>= fun x => guarded c (f x)) = guarded (b && c) (f a) := by
  cases b <;> rfl

theorem guarded_eq_ok_iff {x : α} : guarded b a = .ok x ↔ b = true ∧ a = x := by
  cases b <;> simp [guarded]

end

section
variable {wholeOf : String → Option Int}

theorem decodeKey_str (k : String) :
    decodeKey wholeOf (.str k) = guarded (k ≠ "__proto__") k := by
  by_cases hk : k = "__proto__" <;> simp [decodeKey, guarded, hk]

mutual
theorem decode_write : ∀ v : Json.Value,
    decode wholeOf v.write = guarded (protoFree v) (ofJson wholeOf v)
  | .null | .bool _ | .number (.float _) | .string _ => rfl
  | .number (.int n) => by
    by_cases hn : 0 ≤ n <;> simp [Json.Value.write, hn, decode, ofJson, protoFree, guarded]
  | .array items => by
    simp only [Json.Value.write, decode, decodeItems_writeItems items, protoFree, ofJson,
      guarded_bind_pure]
  | .object fields => by
    simp only [Json.Value.write, decode, decodeEntries_writeFields fields, protoFree, ofJson,
      guarded_bind_pure]

theorem decodeItems_writeItems : ∀ vs : List Json.Value,
    decodeItems wholeOf (Json.writeItems vs) =
      guarded (protoFreeItems vs) (ofJsonItems wholeOf vs)
  | [] => rfl
  | v :: vs => by
    simp only [Json.writeItems, decodeItems, decode_write v, decodeItems_writeItems vs,
      protoFreeItems, ofJsonItems, guarded_bind_pure, guarded_bind]

theorem decodeEntries_writeFields : ∀ vs : List (String × Json.Value),
    decodeEntries wholeOf (Json.writeFields vs) =
      guarded (protoFreeFields vs) (ofJsonFields wholeOf vs)
  | [] => rfl
  | (k, v) :: vs => by
    simp only [Json.writeFields, decodeEntries, decodeKey_str, decode_write v,
      decodeEntries_writeFields vs, protoFreeFields, ofJsonFields, guarded_bind_pure, guarded_bind,
      Bool.and_assoc]
end

theorem decodeItems_map {α : Type} {write : α → MsgPack.Value} {free : α → Bool}
    {read : α → JsValue} (h : ∀ x, decode wholeOf (write x) = guarded (free x) (read x))
    (xs : List α) : decodeItems wholeOf (xs.map write) = guarded (xs.all free) (xs.map read) := by
  induction xs with
  | nil => rfl
  | cons x xs ih =>
    simp only [List.map_cons, decodeItems, h x, ih, List.all_cons, guarded_bind_pure, guarded_bind]

theorem decodeEntries_checksums (es : List ((_ : BucketId) × BucketChecksum)) :
    decodeEntries wholeOf (es.map fun e => (.str e.1.val, .uint e.2.toNat)) =
      guarded (es.all (·.1.val ≠ "__proto__"))
        (es.map fun e => (e.1.val, .number (.ofInt e.2.toNat))) := by
  induction es with
  | nil => rfl
  | cons e es ih =>
    have hvalue : decode wholeOf (.uint e.2.toNat) =
        guarded true (.number (.ofInt e.2.toNat)) := rfl
    simp only [List.map_cons, decodeEntries, decodeKey_str, hvalue, ih, List.all_cons,
      guarded_bind_pure, guarded_bind, Bool.true_and]

theorem decode_uint (n : Nat) : decode wholeOf (.uint n) = guarded true (.number (.ofInt n)) := rfl

theorem decode_writeVariant {name : String} (hname : name ≠ "__proto__") {v : MsgPack.Value}
    {b : Bool} {x : JsValue} (hv : decode wholeOf v = guarded b x) :
    decode wholeOf (MsgPack.writeVariant name v) = guarded b (.object [(name, x)]) := by
  have hkey : decodeKey wholeOf (.str name) = .ok name := by simp [decodeKey, hname]
  rw [MsgPack.writeVariant, decode, decodeEntries, hkey, hv, decodeEntries]
  cases b <;> rfl

def patchItems (bytes : List UInt8) : JsValue :=
  .array (bytes.map fun b => .number (.ofInt b.toNat))

theorem decode_op (op : Op) :
    decode wholeOf op.write = guarded (opProtoFree op) (opShape wholeOf patchItems op) := by
  cases op with
  | upsert row => exact decode_writeVariant (by decide) (decode_write row)
  | delete => rfl
  | crdtPatch bytes =>
    have hitems : decodeItems wholeOf (bytes.map fun b => .uint b.toNat) =
        guarded (bytes.all fun _ => true) (bytes.map fun b => .number (.ofInt b.toNat)) :=
      decodeItems_map (fun b => decode_uint b.toNat) bytes
    refine decode_writeVariant (by decide) ?_
    rw [decode, hitems, guarded_bind_pure, List.all_eq_true.mpr fun _ _ => rfl]
    rfl

theorem decode_bucketOp (op : BucketOp) : decode wholeOf (MsgPack.writeStruct op.fields) =
    guarded (opProtoFree op.op)
      (bucketOpShape wholeOf (fun n => .ofInt n.toNat) patchItems op) := by
  have hop : decode wholeOf op.op.write = _ := decode_op op.op
  simp only [MsgPack.writeStruct, BucketOp.fields, List.map_cons, List.map_nil, decode,
    decodeEntries, hop, bucketOpShape]
  cases opProtoFree op.op <;> rfl

theorem decodeServer_encodeServer (msg : ServerMessage) :
    decodeServer wholeOf (encodeServer msg) = guarded (protoFreeMessage msg)
      (shape wholeOf (fun n => .ofInt n.toNat) patchItems msg) := by
  have hvariant : msg.variant ≠ "__proto__" := by cases msg <;> simp [ServerMessage.variant]
  rw [decodeServer, encodeServer, MsgPack.writeStruct]
  cases msg with
  | snapshotBegin bucketId totalRows protocolVersion =>
    refine decode_writeVariant hvariant ?_
    rw [← JsNumber.ofInt_of_lt (protocolVersion.toNat_lt.trans (by decide))]
    rfl
  | snapshotBatch bucketId rows offset =>
    have hrows : decodeItems wholeOf (rows.map Json.Value.write) = _ :=
      decodeItems_map decode_write rows
    refine decode_writeVariant hvariant ?_
    simp only [ServerMessage.fields, List.map_cons, List.map_nil, decode, decodeEntries, hrows,
      protoFreeMessage]
    cases rows.all protoFree <;> rfl
  | snapshotComplete bucketId checksum => rfl
  | delta bucketId ops lsn =>
    have hops : decodeItems wholeOf (ops.map fun op => MsgPack.writeStruct op.fields) = _ :=
      decodeItems_map decode_bucketOp ops
    refine decode_writeVariant hvariant ?_
    simp only [ServerMessage.fields, ServerMessage.deltaFields, List.map_cons, List.map_nil,
      decode, decodeEntries, hops, protoFreeMessage]
    cases ops.all fun op => opProtoFree op.op <;> rfl
  | checkpoint lsn bucketChecksums =>
    have hentries := @decodeEntries_checksums wholeOf bucketChecksums.entries
    refine decode_writeVariant hvariant ?_
    simp only [ServerMessage.fields, writeChecksums, List.map_cons, List.map_nil, decode,
      decodeEntries, hentries, protoFreeMessage]
    cases bucketChecksums.entries.all (·.1.val ≠ "__proto__") <;> rfl
  | keepalive serverTimeMs => rfl
  | error code message =>
    refine decode_writeVariant hvariant ?_
    rw [← JsNumber.ofInt_of_lt (code.toNat_lt.trans (by decide))]
    rfl

theorem opShape_eq_iff (op : Op) :
    opShape wholeOf patchItems op = opShape wholeOf .uint8Array op ↔ isCrdtPatch op = false := by
  cases op <;> simp [opShape, isCrdtPatch, patchItems]

theorem received_eq_mirror_iff (msg : ServerMessage) :
    shape wholeOf (fun n => .ofInt n.toNat) patchItems msg = mirror wholeOf msg ↔
      (∀ n ∈ u64Fields msg, Exact n.toNat) ∧ carriesPatch msg = false := by
  cases msg with
  | delta bucketId ops lsn =>
    have hop (op : BucketOp) :
        bucketOpShape wholeOf (fun n => .ofInt n.toNat) patchItems op =
          bucketOpShape wholeOf (fun n => .integer n.toNat) .uint8Array op ↔
        Exact op.lsn.toNat ∧ isCrdtPatch op.op = false := by
      simp [bucketOpShape, opShape_eq_iff, JsNumber.ofInt_eq_iff]
    simp only [u64Fields, List.forall_mem_cons, List.forall_mem_map]
    simp only [mirror, shape, JsValue.object.injEq, List.cons.injEq, Prod.mk.injEq,
      JsValue.array.injEq, List.map_inj_left, JsValue.number.injEq, JsNumber.ofInt_eq_iff, hop,
      forall_and, carriesPatch, List.any_eq_false, Bool.not_eq_true, true_and, and_true]
    exact and_comm.trans and_assoc.symm
  | checkpoint lsn bucketChecksums =>
    simp only [u64Fields, List.forall_mem_cons, List.forall_mem_map]
    simp [mirror, shape, carriesPatch, JsNumber.ofInt_eq_iff]
  | snapshotBegin | snapshotBatch | snapshotComplete | keepalive | error =>
    simp [mirror, shape, u64Fields, carriesPatch, JsNumber.ofInt_eq_iff]

end

theorem lt_of_le_maxSafeInteger {lsn : PgLsn} (h : lsn ≤ maxSafeInteger) : lsn.toNat < 2 ^ 53 := by
  have hle : lsn.toNat ≤ 9007199254740991 := UInt64.le_iff_toNat_le.mp h
  omega

theorem encodeNumber_ofInt {lsn : PgLsn} (h : lsn ≤ maxSafeInteger) :
    encodeNumber (.ofInt lsn.toNat) = .uint lsn.toNat := by
  rw [JsNumber.ofInt_of_lt (lt_of_le_maxSafeInteger h)]
  have hsafe : lsn.toNat ≤ maxSafeInteger.toNat := UInt64.le_iff_toNat_le.mp h
  simp [encodeNumber, JsNumber.isSafeInteger, hsafe]

theorem encodeNumber_ofInt_of_lt {lsn : PgLsn} (h : maxSafeInteger < lsn) :
    ∃ text, encodeNumber (.ofInt lsn.toNat) = .float (.finite text) := by
  have hle : 2 ^ 53 ≤ lsn.toNat := UInt64.lt_iff_toNat_lt.mp h
  have hnearest : ¬nearest lsn.toNat ≤ maxSafeInteger.toNat :=
    Nat.not_le.mpr (Binary64.le_nearest hle)
  refine ⟨(JsNumber.ofInt lsn.toNat).toText, ?_⟩
  rw [JsNumber.ofInt_natCast]
  simp [encodeNumber, JsNumber.isSafeInteger, hnearest]

theorem JsNumber.ofText_toText {n : Nat} (h : Exact n) :
    ofText (JsNumber.integer n).toText = .integer n := by
  have hshortest : (n : Int).sign * (shortest n : Int) = (shortest n : Int) := by
    rcases Nat.eq_zero_or_pos n with rfl | hn
    · rfl
    · rw [Int.sign_eq_one_of_pos (by omega), one_mul]
  rw [ofText, toText, Int.natAbs_natCast, hshortest, Int.toInt?_repr]
  change ofInt (shortest n : Int) = _
  rw [ofInt_natCast, Binary64.nearest_shortest h]

theorem encodeItems_strings (ss : List String) :
    encodeItems (ss.map .string) = ss.map .str := by
  induction ss with
  | nil => rfl
  | cons s ss ih => rw [List.map_cons, encodeItems, encode, ih, List.map_cons]

theorem decodeClient_of_safe {lsn : PgLsn} (h : lsn ≤ maxSafeInteger) (buckets : List String)
    (token : String) :
    decodeClient (encodeClient (ackMessage (.ofInt lsn.toNat))) = .ok (.ack lsn) ∧
    decodeClient (encodeClient (subscribeMessage buckets token
        (some (JsNumber.ofInt lsn.toNat).toText))) =
      .ok (.subscribe buckets token (some lsn) protocolVersion) := by
  have hack : encodeClient (ackMessage (.ofInt lsn.toNat)) =
      EntitySync.encodeClient (.ack lsn) := by
    simp [encodeClient, ackMessage, encode, encodeProperties, encodeNumber_ofInt h,
      EntitySync.encodeClient, ClientMessage.variant, MsgPack.writeVariant, MsgPack.writeStruct,
      ClientMessage.fields]
  have hexact := Binary64.exact_of_lt (lt_of_le_maxSafeInteger h)
  have htext : JsNumber.ofText (JsNumber.ofInt lsn.toNat).toText = .ofInt lsn.toNat := by
    rw [JsNumber.ofInt_eq_iff.mpr hexact, JsNumber.ofText_toText hexact]
  have hsubscribe : encodeClient (subscribeMessage buckets token
      (some (JsNumber.ofInt lsn.toNat).toText)) =
      EntitySync.encodeClient (.subscribe buckets token (some lsn) protocolVersion) := by
    have hversion : encodeNumber (.integer protocolVersion.toNat) =
        .uint protocolVersion.toNat := rfl
    simp [encodeItems_strings, hversion, encodeClient, subscribeMessage, encode,
      encodeProperties, htext, encodeNumber_ofInt h,
      EntitySync.encodeClient, ClientMessage.variant, MsgPack.writeVariant, MsgPack.writeStruct,
      ClientMessage.fields]
  rw [hack, hsubscribe]
  exact ⟨decodeClient_encodeClient trivial, decodeClient_encodeClient trivial⟩

theorem decodeClient_ack_of_unsafe {lsn : PgLsn} (h : maxSafeInteger < lsn) :
    decodeClient (encodeClient (ackMessage (.ofInt lsn.toNat))) ≠ .ok (.ack lsn) := by
  obtain ⟨text, htext⟩ := encodeNumber_ofInt_of_lt h
  have hframe : encodeClient (ackMessage (.ofInt lsn.toNat)) =
      .map [(.str "Ack", .map [(.str "lsn", .float (.finite text))])] := by
    simp [encodeClient, ackMessage, encode, encodeProperties, htext]
  rw [hframe]
  intro hok
  cases hok

/-- The server decodes the client's `Ack` and `Subscribe` for a received LSN to this LSN. -/
def NamesLsn (lsn : PgLsn) : Prop :=
  ∀ (buckets : List String) (token : String),
    decodeClient (encodeClient (ackMessage (.ofInt lsn.toNat))) = .ok (.ack lsn) ∧
    decodeClient (encodeClient (subscribeMessage buckets token
        (some (JsNumber.ofInt lsn.toNat).toText))) =
      .ok (.subscribe buckets token (some lsn) protocolVersion)

/-- The client's value mirrors the message, and its frames for the received LSNs name them. -/
def Agrees (wholeOf : String → Option Int) (msg : ServerMessage) : Prop :=
  decodeServer wholeOf (encodeServer msg) = .ok (mirror wholeOf msg) ∧
  ∀ lsn ∈ receivedLsns msg, NamesLsn lsn

theorem mirrors_iff (wholeOf : String → Option Int) (msg : ServerMessage) :
    decodeServer wholeOf (encodeServer msg) = .ok (mirror wholeOf msg) ↔
      protoFreeMessage msg = true ∧ (∀ n ∈ u64Fields msg, Exact n.toNat) ∧
        carriesPatch msg = false := by
  rw [decodeServer_encodeServer, guarded_eq_ok_iff, received_eq_mirror_iff]

theorem namesLsn_iff (lsn : PgLsn) : NamesLsn lsn ↔ lsn ≤ maxSafeInteger := by
  constructor
  · intro h
    by_contra hlsn
    exact decodeClient_ack_of_unsafe (UInt64.not_le.mp hlsn) (h [] "").1
  · exact decodeClient_of_safe

/-- The two codecs agree on exactly the messages whose `u64` fields are doubles, whose LSNs are
safe integers, and which carry neither a patch nor an object with the key `__proto__`. -/
theorem agrees_iff (wholeOf : String → Option Int) (msg : ServerMessage) :
    Agrees wholeOf msg ↔
      (∀ n ∈ u64Fields msg, Exact n.toNat) ∧ (∀ lsn ∈ receivedLsns msg, lsn ≤ maxSafeInteger) ∧
      carriesPatch msg = false ∧ protoFreeMessage msg = true := by
  rw [Agrees, mirrors_iff]
  constructor
  · rintro ⟨⟨hfree, hexact, hpatch⟩, hlsns⟩
    exact ⟨hexact, fun lsn hlsn => (namesLsn_iff lsn).mp (hlsns lsn hlsn), hpatch, hfree⟩
  · rintro ⟨hexact, hlsns, hpatch, hfree⟩
    exact ⟨⟨hfree, hexact, hpatch⟩, fun lsn hlsn => (namesLsn_iff lsn).mpr (hlsns lsn hlsn)⟩

/-- A patch arrives as an array, an LSN that is no double is rounded, and the first LSN above the
safe integers comes back to the server as a float. -/
theorem disagrees_on_patch_and_large_lsn :
    ¬Agrees String.toInt? (.delta ⟨"docs"⟩ [⟨1, ⟨"docs"⟩, "Doc", "d1", .crdtPatch [7]⟩] 1) ∧
    ¬Agrees String.toInt? (.delta ⟨"docs"⟩ [] 9007199254740993) ∧
    ¬Agrees String.toInt? (.delta ⟨"docs"⟩ [] 9007199254740992) := by
  refine ⟨?_, ?_, ?_⟩
  · intro h
    have hpatch := ((mirrors_iff _ _).mp h.1).2.2
    cases hpatch
  · intro h
    have hexact := ((mirrors_iff _ _).mp h.1).2.1 9007199254740993 (by simp [u64Fields])
    revert hexact
    decide +kernel
  · intro h
    have hsafe := (namesLsn_iff _).mp (h.2 9007199254740992 (by simp [receivedLsns]))
    revert hsafe
    decide +kernel

end EntitySync.Client
