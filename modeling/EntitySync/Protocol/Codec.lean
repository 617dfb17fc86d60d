import EntitySync.Protocol.JsonCodec
import EntitySync.Protocol.Messages

/-!
# The message codec

`encode_server`, `encode_client` and their decoders, as serde derives them for `rmp_serde`'s named
encoding: a message is a map from its variant to the map of its fields. MessagePack values stand
for their bytes.
-/

namespace EntitySync

open MsgPack

/-- The levels that `rmp_serde` descends by default. -/
def depthLimit : Nat := 1024

def readU64 (_ : Nat) (v : Value) : Except DecodeError UInt64 := .ofNat <$> readUInt UInt64.size v

def readU16 (_ : Nat) (v : Value) : Except DecodeError UInt16 := .ofNat <$> readUInt UInt16.size v

def readU8 (_ : Nat) (v : Value) : Except DecodeError UInt8 := .ofNat <$> readUInt UInt8.size v

def readText (_ : Nat) (v : Value) : Except DecodeError String := readString v

def readBucketId (_ : Nat) (v : Value) : Except DecodeError BucketId := .mk <$> readString v

def writeChecksums (checksums : HashMap BucketId BucketChecksum) : Value :=
  .map (checksums.entries.map fun e => (.str e.1.val, .uint e.2.toNat))

def readChecksum (depth : Nat) (e : Value × Value) :
    Except DecodeError (BucketId × BucketChecksum) := do
  return (← readBucketId depth e.1, ← readU64 depth e.2)

def readChecksums (depth : Nat) : Value → Except DecodeError (HashMap BucketId BucketChecksum)
  | .map entries => do
    let inner ← enter depth
    return AssocMap.ofEntries (← entries.mapM (readChecksum inner))
  | _ => .error (.invalidType "a map")

def Op.write : Op → Value
  | .upsert row => writeVariant "Upsert" row.write
  | .delete => .str "Delete"
  | .crdtPatch patch => writeVariant "CrdtPatch" (.array (patch.map fun b => .uint b.toNat))

def Op.variants : List String := ["Upsert", "Delete", "CrdtPatch"]

def Op.read (depth : Nat) (v : Value) : Except DecodeError Op := do
  match ← readVariant Op.variants v with
  | ("Upsert", some content) => return .upsert (← Json.Value.read depth content)
  | ("Delete", none) | ("Delete", some .nil) => return .delete
  | ("CrdtPatch", some content) => return .crdtPatch (← readSeq readU8 depth content)
  | _ => .error (.invalidType "a variant of Op")

def BucketOp.fieldNames : List String := ["lsn", "bucket_id", "entity_type", "entity_id", "op"]

def BucketOp.fields (op : BucketOp) : List (String × Value) :=
  [("lsn", .uint op.lsn.toNat), ("bucket_id", .str op.bucketId.val),
    ("entity_type", .str op.entityType), ("entity_id", .str op.entityId), ("op", op.op.write)]

def BucketOp.read (depth : Nat) (v : Value) : Except DecodeError BucketOp := do
  let fields ← readFields BucketOp.fieldNames depth v
  return {
    lsn := ← fields.required "lsn" readU64
    bucketId := ← fields.required "bucket_id" readBucketId
    entityType := ← fields.required "entity_type" readText
    entityId := ← fields.required "entity_id" readText
    op := ← fields.required "op" Op.read }

namespace ServerMessage

def variant : ServerMessage → String
  | .snapshotBegin _ _ _ => "SnapshotBegin"
  | .snapshotBatch _ _ _ => "SnapshotBatch"
  | .snapshotComplete _ _ => "SnapshotComplete"
  | .delta _ _ _ => "Delta"
  | .checkpoint _ _ => "Checkpoint"
  | .keepalive _ => "Keepalive"
  | .error _ _ => "Error"

def variants : List String :=
  ["SnapshotBegin", "SnapshotBatch", "SnapshotComplete", "Delta", "Checkpoint", "Keepalive",
    "Error"]

def fieldNames : String → List String
  | "SnapshotBegin" => ["bucket_id", "total_rows", "protocol_version"]
  | "SnapshotBatch" => ["bucket_id", "rows", "offset"]
  | "SnapshotComplete" => ["bucket_id", "checksum"]
  | "Delta" => ["bucket_id", "ops", "lsn"]
  | "Checkpoint" => ["lsn", "bucket_checksums"]
  | "Keepalive" => ["server_time_ms"]
  | "Error" => ["code", "message"]
  | _ => []

def deltaFields (bucketId : BucketId) (items : List Value) (lsn : PgLsn) :
    List (String × Value) :=
  [("bucket_id", .str bucketId.val), ("ops", .array items), ("lsn", .uint lsn.toNat)]

def fields : ServerMessage → List (String × Value)
  | .snapshotBegin bucketId totalRows protocolVersion =>
    [("bucket_id", .str bucketId.val), ("total_rows", .uint totalRows.toNat),
      ("protocol_version", .uint protocolVersion.toNat)]
  | .snapshotBatch bucketId rows offset =>
    [("bucket_id", .str bucketId.val), ("rows", .array (rows.map Json.Value.write)),
      ("offset", .uint offset.toNat)]
  | .snapshotComplete bucketId checksum =>
    [("bucket_id", .str bucketId.val), ("checksum", .uint checksum.toNat)]
  | .delta bucketId ops lsn =>
    deltaFields bucketId (ops.map fun op => writeStruct op.fields) lsn
  | .checkpoint lsn bucketChecksums =>
    [("lsn", .uint lsn.toNat), ("bucket_checksums", writeChecksums bucketChecksums)]
  | .keepalive serverTimeMs => [("server_time_ms", .uint serverTimeMs.toNat)]
  | .error code message => [("code", .uint code.toNat), ("message", .str message)]

def read (depth : Nat) (v : Value) : Except DecodeError ServerMessage := do
  match ← readVariant variants v with
  | ("SnapshotBegin", some content) =>
    let fields ← readFields (fieldNames "SnapshotBegin") depth content
    return .snapshotBegin (← fields.required "bucket_id" readBucketId)
      (← fields.required "total_rows" readU64) (← fields.required "protocol_version" readU8)
  | ("SnapshotBatch", some content) =>
    let fields ← readFields (fieldNames "SnapshotBatch") depth content
    return .snapshotBatch (← fields.required "bucket_id" readBucketId)
      (← fields.required "rows" (readSeq Json.Value.read)) (← fields.required "offset" readU64)
  | ("SnapshotComplete", some content) =>
    let fields ← readFields (fieldNames "SnapshotComplete") depth content
    return .snapshotComplete (← fields.required "bucket_id" readBucketId)
      (← fields.required "checksum" readU64)
  | ("Delta", some content) =>
    let fields ← readFields (fieldNames "Delta") depth content
    return .delta (← fields.required "bucket_id" readBucketId)
      (← fields.required "ops" (readSeq BucketOp.read)) (← fields.required "lsn" readU64)
  | ("Checkpoint", some content) =>
    let fields ← readFields (fieldNames "Checkpoint") depth content
    return .checkpoint (← fields.required "lsn" readU64)
      (← fields.required "bucket_checksums" readChecksums)
  | ("Keepalive", some content) =>
    let fields ← readFields (fieldNames "Keepalive") depth content
    return .keepalive (← fields.required "server_time_ms" readU64)
  | ("Error", some content) =>
    let fields ← readFields (fieldNames "Error") depth content
    return .error (← fields.required "code" readU16) (← fields.required "message" readText)
  | _ => .error (.invalidType "a variant of ServerMessage")

end ServerMessage

namespace ClientMessage

def variant : ClientMessage → String
  | .subscribe _ _ _ _ => "Subscribe"
  | .ack _ => "Ack"
  | .write _ _ _ => "Write"
  | .ping => "Ping"

def variants : List String := ["Subscribe", "Ack", "Write", "Ping"]

def fieldNames : String → List String
  | "Subscribe" => ["buckets", "token", "resume_lsn", "protocol_version"]
  | "Ack" => ["lsn"]
  | "Write" => ["entity_type", "entity_id", "op"]
  | _ => []

def fields : ClientMessage → List (String × Value)
  | .subscribe buckets token resumeLsn protocolVersion =>
    [("buckets", .array (buckets.map .str)), ("token", .str token),
      ("resume_lsn", match resumeLsn with
        | none => .nil
        | some lsn => .uint lsn.toNat),
      ("protocol_version", .uint protocolVersion.toNat)]
  | .ack lsn => [("lsn", .uint lsn.toNat)]
  | .write entityType entityId op =>
    [("entity_type", .str entityType), ("entity_id", .str entityId), ("op", op.write)]
  | .ping => []

def read (depth : Nat) (v : Value) : Except DecodeError ClientMessage := do
  match ← readVariant variants v with
  | ("Subscribe", some content) =>
    let fields ← readFields (fieldNames "Subscribe") depth content
    return .subscribe (← fields.required "buckets" (readSeq readText))
      (← fields.required "token" readText) (← fields.optional "resume_lsn" readU64)
      (← fields.required "protocol_version" readU8)
  | ("Ack", some content) =>
    let fields ← readFields (fieldNames "Ack") depth content
    return .ack (← fields.required "lsn" readU64)
  | ("Write", some content) =>
    let fields ← readFields (fieldNames "Write") depth content
    return .write (← fields.required "entity_type" readText)
      (← fields.required "entity_id" readText) (← fields.required "op" Op.read)
  | ("Ping", none) | ("Ping", some .nil) => return .ping
  | _ => .error (.invalidType "a variant of ClientMessage")

end ClientMessage

def encodeServer (msg : ServerMessage) : Value := writeVariant msg.variant (writeStruct msg.fields)

def encodeClient : ClientMessage → Value
  | .ping => .str "Ping"
  | msg => writeVariant msg.variant (writeStruct msg.fields)

def decodeServer (v : Value) : Except DecodeError ServerMessage := ServerMessage.read depthLimit v

def decodeClient (v : Value) : Except DecodeError ClientMessage := ClientMessage.read depthLimit v

def Op.WellFormed (depth : Nat) : Op → Prop
  | .upsert row => row.Ordered ∧ row.write.depth < depth
  | .delete | .crdtPatch _ => True

theorem readUInt_uint {bound n : Nat} (h : n < bound) : readUInt bound (.uint n) = .ok n := by
  rw [readUInt, if_pos h]

@[simp] theorem readU64_uint (depth : Nat) (n : UInt64) :
    readU64 depth (.uint n.toNat) = .ok n := by
  rw [readU64, readUInt_uint n.toNat_lt_size]
  simp [Functor.map, Except.map]

@[simp] theorem readU16_uint (depth : Nat) (n : UInt16) :
    readU16 depth (.uint n.toNat) = .ok n := by
  rw [readU16, readUInt_uint n.toNat_lt_size]
  simp [Functor.map, Except.map]

@[simp] theorem readU8_uint (depth : Nat) (n : UInt8) : readU8 depth (.uint n.toNat) = .ok n := by
  rw [readU8, readUInt_uint n.toNat_lt_size]
  simp [Functor.map, Except.map]

@[simp] theorem readText_str (depth : Nat) (s : String) : readText depth (.str s) = .ok s := rfl

@[simp] theorem readBucketId_str (depth : Nat) (b : BucketId) :
    readBucketId depth (.str b.val) = .ok b := rfl

theorem readChecksums_write (depth : Nat) (checksums : HashMap BucketId BucketChecksum) :
    readChecksums (depth + 2) (writeChecksums checksums) = .ok checksums := by
  have hentries : (checksums.entries.map fun e => (Value.str e.1.val, Value.uint e.2.toNat)).mapM
      (readChecksum (depth + 1)) = .ok (checksums.entries.map fun e => (e.1, e.2)) := by
    apply Checks.mapM_eq_ok_of_forall₂
    rw [List.forall₂_map_left_iff, List.forall₂_map_right_iff, List.forall₂_same]
    intro e _
    simp [readChecksum]
  simp only [writeChecksums, readChecksums, enter, ok_bind, hentries, AssocMap.ofEntries_entries,
    pure_eq_ok]

theorem Op.read_write {depth : Nat} {op : Op} (h : op.WellFormed (depth + 2)) :
    Op.read (depth + 2) op.write = .ok op := by
  cases op with
  | upsert row =>
    have hrow := row.read_write h.1 h.2
    simp [Op.read, Op.write, readVariant_writeVariant, Op.variants, hrow]
  | delete => rfl
  | crdtPatch patch =>
    have hpatch : readSeq readU8 (depth + 2) (.array (patch.map fun b => .uint b.toNat)) =
        .ok patch := readSeq_map fun b _ => readU8_uint _ b
    simp [Op.read, Op.write, readVariant_writeVariant, Op.variants, hpatch]

theorem BucketOp.read_extended {depth : Nat} {op : BucketOp} {v : Value}
    (h : ExtendedStruct BucketOp.fieldNames (depth + 3) op.fields v)
    (hop : op.op.WellFormed (depth + 2)) : BucketOp.read (depth + 3) v = .ok op := by
  have hfields := readFields_extended h rfl (by decide)
  simp [BucketOp.read, hfields, Fields.required, BucketOp.fields, List.lookup_cons,
    Op.read_write hop]

namespace ServerMessage

/-- The JSON of the message stays below the depth that is left where it is read. -/
def WellFormed (depth : Nat) : ServerMessage → Prop
  | .snapshotBatch _ rows _ => ∀ row ∈ rows, row.Ordered ∧ row.write.depth < depth - 2
  | .delta _ ops _ => ∀ op ∈ ops, op.op.WellFormed (depth - 3)
  | .snapshotBegin _ _ _ | .snapshotComplete _ _ | .checkpoint _ _ | .keepalive _
  | .error _ _ => True

/-- The content of the message as it is written, with further pairs in its field map and, for a
`Delta`, in the maps of its ops. -/
def ExtendedContent (depth : Nat) (content : Value) : ServerMessage → Prop
  | .delta bucketId ops lsn => ∃ items,
    List.Forall₂ (fun op item =>
      ExtendedStruct BucketOp.fieldNames (depth - 2) (BucketOp.fields op) item) ops items ∧
    ExtendedStruct (fieldNames "Delta") depth (deltaFields bucketId items lsn) content
  | msg => ExtendedStruct (fieldNames msg.variant) depth msg.fields content

theorem extendedContent_writeStruct (depth : Nat) (msg : ServerMessage) :
    msg.ExtendedContent depth (writeStruct msg.fields) := by
  cases msg with
  | delta bucketId ops lsn =>
    refine ⟨_, ?_, extendedStruct_writeStruct _⟩
    rw [List.forall₂_map_right_iff, List.forall₂_same]
    intro op _
    exact extendedStruct_writeStruct _
  | snapshotBegin | snapshotBatch | snapshotComplete | checkpoint | keepalive | error =>
    exact extendedStruct_writeStruct _

/-- A well-formed message is read back, also from an extended content. -/
theorem read_extended {depth : Nat} {msg : ServerMessage} (hmsg : msg.WellFormed (depth + 5))
    {content : Value} (h : msg.ExtendedContent (depth + 5) content) :
    read (depth + 5) (writeVariant msg.variant content) = .ok msg := by
  have hvariant : msg.variant ∈ variants := by cases msg <;> simp [variant, variants]
  rw [read, readVariant_writeVariant hvariant]
  cases msg with
  | snapshotBegin bucketId totalRows protocolVersion =>
    have hfields : readFields (fieldNames "SnapshotBegin") (depth + 5) content =
        .ok ⟨_, depth + 4⟩ := readFields_extended h rfl (by decide)
    simp [variant, hfields, fields, Fields.required, List.lookup_cons]
  | snapshotBatch bucketId rows offset =>
    have hfields : readFields (fieldNames "SnapshotBatch") (depth + 5) content =
        .ok ⟨_, depth + 4⟩ := readFields_extended h rfl (by decide)
    have hrows : readSeq Json.Value.read (depth + 4) (.array (rows.map Json.Value.write)) =
        .ok rows := readSeq_map fun row hrow => row.read_write (hmsg row hrow).1 (hmsg row hrow).2
    simp [variant, hfields, fields, Fields.required, List.lookup_cons, hrows]
  | snapshotComplete bucketId checksum =>
    have hfields : readFields (fieldNames "SnapshotComplete") (depth + 5) content =
        .ok ⟨_, depth + 4⟩ := readFields_extended h rfl (by decide)
    simp [variant, hfields, fields, Fields.required, List.lookup_cons]
  | delta bucketId ops lsn =>
    obtain ⟨items, hitems, hcontent⟩ := h
    have hfields : readFields (fieldNames "Delta") (depth + 5) content = .ok ⟨_, depth + 4⟩ :=
      readFields_extended hcontent rfl (by decide)
    have hops : readSeq BucketOp.read (depth + 4) (.array items) = .ok ops := by
      apply readSeq_array
      refine (List.Forall₂.imp ?_ ((List.forall₂_and_left _ _).mpr ⟨hmsg, hitems⟩)).flip
      intro op item hop
      exact BucketOp.read_extended hop.2 hop.1
    simp [variant, hfields, deltaFields, Fields.required, List.lookup_cons, hops]
  | checkpoint lsn bucketChecksums =>
    have hfields : readFields (fieldNames "Checkpoint") (depth + 5) content =
        .ok ⟨_, depth + 4⟩ := readFields_extended h rfl (by decide)
    simp [variant, hfields, fields, Fields.required, List.lookup_cons, readChecksums_write]
  | keepalive serverTimeMs =>
    have hfields : readFields (fieldNames "Keepalive") (depth + 5) content =
        .ok ⟨_, depth + 4⟩ := readFields_extended h rfl (by decide)
    simp [variant, hfields, fields, Fields.required]
  | error code message =>
    have hfields : readFields (fieldNames "Error") (depth + 5) content = .ok ⟨_, depth + 4⟩ :=
      readFields_extended h rfl (by decide)
    simp [variant, hfields, fields, Fields.required, List.lookup_cons]

end ServerMessage

namespace ClientMessage

def WellFormed (depth : Nat) : ClientMessage → Prop
  | .write _ _ op => op.WellFormed (depth - 1)
  | .subscribe _ _ _ _ | .ack _ | .ping => True

theorem read_extended {depth : Nat} {msg : ClientMessage} (hmsg : msg.WellFormed (depth + 3))
    {content : Value} (hping : msg ≠ .ping)
    (h : ExtendedStruct (fieldNames msg.variant) (depth + 3) msg.fields content) :
    read (depth + 3) (writeVariant msg.variant content) = .ok msg := by
  have hvariant : msg.variant ∈ variants := by cases msg <;> simp [variant, variants]
  rw [read, readVariant_writeVariant hvariant]
  cases msg with
  | subscribe buckets token resumeLsn protocolVersion =>
    have hfields : readFields (fieldNames "Subscribe") (depth + 3) content =
        .ok ⟨_, depth + 2⟩ := readFields_extended h rfl (by decide)
    have hbuckets : readSeq readText (depth + 2) (.array (buckets.map .str)) = .ok buckets :=
      readSeq_map fun bucket _ => readText_str _ bucket
    cases resumeLsn with
    | none =>
      simp [variant, hfields, fields, Fields.required, Fields.optional, List.lookup_cons, hbuckets]
    | some lsn =>
      simp [variant, hfields, fields, Fields.required, Fields.optional, List.lookup_cons, hbuckets,
        Functor.map, Except.map]
  | ack lsn =>
    have hfields : readFields (fieldNames "Ack") (depth + 3) content = .ok ⟨_, depth + 2⟩ :=
      readFields_extended h rfl (by decide)
    simp [variant, hfields, fields, Fields.required]
  | write entityType entityId op =>
    have hfields : readFields (fieldNames "Write") (depth + 3) content = .ok ⟨_, depth + 2⟩ :=
      readFields_extended h rfl (by decide)
    have hop : Op.read (depth + 2) op.write = .ok op := Op.read_write hmsg
    simp [variant, hfields, fields, Fields.required, List.lookup_cons, hop]
  | ping => exact absurd rfl hping

end ClientMessage

theorem decodeClient_extended {msg : ClientMessage} (hmsg : msg.WellFormed depthLimit)
    {content : Value} (hping : msg ≠ .ping)
    (h : ExtendedStruct (ClientMessage.fieldNames msg.variant) depthLimit msg.fields content) :
    decodeClient (writeVariant msg.variant content) = .ok msg := by
  change msg.WellFormed (1021 + 3) at hmsg
  exact ClientMessage.read_extended hmsg hping h

theorem decodeClient_encodeClient {msg : ClientMessage} (hmsg : msg.WellFormed depthLimit) :
    decodeClient (encodeClient msg) = .ok msg := by
  cases msg with
  | ping => rfl
  | subscribe | ack | write =>
    exact decodeClient_extended hmsg (by simp) (extendedStruct_writeStruct _)

/-- Every message with ordered JSON below the depth limit is decoded to itself, also with further
pairs under unknown keys at any positions of its field map or of the map of an op. -/
theorem decode_extended :
    (∀ msg : ServerMessage, msg.WellFormed depthLimit →
      decodeServer (encodeServer msg) = .ok msg ∧
      ∀ content, msg.ExtendedContent depthLimit content →
        decodeServer (writeVariant msg.variant content) = .ok msg) ∧
    ∀ msg : ClientMessage, msg.WellFormed depthLimit →
      decodeClient (encodeClient msg) = .ok msg ∧
      ∀ content, msg ≠ .ping →
        ExtendedStruct (ClientMessage.fieldNames msg.variant) depthLimit msg.fields content →
        decodeClient (writeVariant msg.variant content) = .ok msg := by
  constructor
  · intro msg hmsg
    change msg.WellFormed (1019 + 5) at hmsg
    have hread (content : Value) (h : msg.ExtendedContent depthLimit content) :
        decodeServer (writeVariant msg.variant content) = .ok msg :=
      ServerMessage.read_extended hmsg h
    exact ⟨hread _ (msg.extendedContent_writeStruct _), hread⟩
  · intro msg hmsg
    refine ⟨decodeClient_encodeClient hmsg, ?_⟩
    intro content hping h
    exact decodeClient_extended hmsg hping h

private def titleOp : BucketOp :=
  ⟨3, ⟨"user_entities"⟩, "Todo", "t1",
    .upsert (.object [("done", .bool true), ("title", .string "a")])⟩

private def laterTitleOp : Value :=
  .map [(.str "lsn", .uint 3), (.str "bucket_id", .str "user_entities"),
    (.str "entity_type", .str "Todo"), (.uint 7, .sint (-1)), (.str "entity_id", .str "t1"),
    (.str "op", .map [(.str "Upsert", .map [(.str "done", .bool true), (.str "title", .str "a")])])]

theorem decode_extended_delta :
    decodeServer (writeVariant "Delta" (.map [(.str "region", .array [.nil]),
        (.str "bucket_id", .str "user_entities"), (.str "ops", .array [laterTitleOp]),
        (.str "lsn", .uint 3)])) =
      .ok (.delta ⟨"user_entities"⟩ [titleOp] 3) := by
  have hop : ExtendedStruct BucketOp.fieldNames (depthLimit - 2) titleOp.fields laterTitleOp :=
    ⟨_, rfl, .keep _ (.keep _ (.keep _ (.insert (by decide : 5 ≤ 7) (by decide) (.refl _))))⟩
  refine (decode_extended.1 (.delta ⟨"user_entities"⟩ [titleOp] 3) ?_).2 _ ?_
  · intro op hmem
    obtain rfl := List.mem_singleton.mp hmem
    refine ⟨⟨?_, ?_⟩, by decide⟩
    · exact List.pairwise_pair.mpr (by decide)
    · exact ⟨trivial, trivial, trivial⟩
  · refine ⟨[laterTitleOp], .cons hop .nil, _, rfl, ?_⟩
    exact .insert (by decide : "region" ∉ ServerMessage.fieldNames "Delta") (by decide) (.refl _)

end EntitySync
