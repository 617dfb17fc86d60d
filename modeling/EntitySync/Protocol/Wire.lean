import EntitySync.Library.MsgPackAccepted
import EntitySync.Protocol.Codec

/-!
# Frames

The codec on bytes: `to_vec_named` writes the MessagePack value of a message, `from_slice` reads
the value at the front of a frame and ignores what follows it. We assume that `Value.bytes` and
`parse` are what `rmp_serde` writes and reads, for frames whose texts are all UTF-8. Another text
is handed on as bytes there, and so passes under a key that is skipped; `parse` refuses it.

Whatever a decoder accepts is a message that the encoder can write, so a message can be passed on:
encoding it again and decoding that gives the same message.
-/

namespace EntitySync

open MsgPack

inductive WireError where
  | malformed
  | invalid (error : DecodeError)

section
variable (layout : FloatLayout)

def encodeServerBytes (msg : ServerMessage) : List UInt8 := (encodeServer msg).bytes layout

def encodeClientBytes (msg : ClientMessage) : List UInt8 := (encodeClient msg).bytes layout

def decodeBytes {α : Type} (decode : Value → Except DecodeError α) (frame : List UInt8) :
    Except WireError α :=
  match parse layout frame with
  | none => .error .malformed
  | some (v, _) => (decode v).mapError .invalid

def decodeServerBytes : List UInt8 → Except WireError ServerMessage :=
  decodeBytes layout decodeServer

def decodeClientBytes : List UInt8 → Except WireError ClientMessage :=
  decodeBytes layout decodeClient

end

variable {layout : FloatLayout}

/-- The frame holds the message, whatever follows it, and it holds none before its last byte. -/
def Frames {α : Type} (decode : List UInt8 → Except WireError α) (frame : List UInt8) (msg : α) :
    Prop :=
  (∀ rest, decode (frame ++ rest) = .ok msg) ∧
  ∀ start rest, frame = start ++ rest → rest ≠ [] → decode start = .error .malformed

theorem decodeBytes_frames {α : Type} {decode : Value → Except DecodeError α} {v : Value} {msg : α}
    (hfits : v.Fits layout) (h : decode v = .ok msg) :
    Frames (decodeBytes layout decode) (v.bytes layout) msg := by
  constructor
  · intro rest
    rw [decodeBytes, parse_bytes hfits]
    simp only [h]
    rfl
  · intro start rest hsplit hrest
    rw [decodeBytes, parse_eq_none_of_cut hfits hsplit hrest]

/-- What a decoder accepts was read from the bounded value at the front of the frame. -/
theorem decodeBytes_eq_ok {α : Type} {decode : Value → Except DecodeError α} {frame : List UInt8}
    {msg : α} (h : decodeBytes layout decode frame = .ok msg) :
    ∃ v : Value, v.Bounded layout ∧ decode v = .ok msg := by
  unfold decodeBytes at h
  split at h
  · cases h
  next v rest hparse =>
    refine ⟨v, parse_bounded hparse, ?_⟩
    cases hdecode : decode v with
    | error e =>
      rw [hdecode] at h
      cases h
    | ok read =>
      rw [hdecode] at h
      cases h
      rfl

theorem decodeServer_encodeServer {msg : ServerMessage} (hmsg : msg.WellFormed depthLimit) :
    decodeServer (encodeServer msg) = .ok msg := by
  change msg.WellFormed (1019 + 5) at hmsg
  exact ServerMessage.read_extended hmsg (msg.extendedContent_writeStruct _)

/-! ## Accepted rows -/

namespace Json

theorem orderedFields_iff {fields : List (String × Value)} :
    orderedFields fields ↔ ∀ e ∈ fields, e.2.Ordered := by
  induction fields with
  | nil => simp [orderedFields]
  | cons e es ih =>
    obtain ⟨k, v⟩ := e
    simp [orderedFields, ih]

theorem orderedItems_iff {items : List Value} : orderedItems items ↔ ∀ v ∈ items, v.Ordered := by
  induction items with
  | nil => simp [orderedItems]
  | cons v vs ih => simp [orderedItems, ih]

theorem depthItems_writeItems_lt {items : List Value} {depth : Nat} (hdepth : 0 < depth)
    (h : ∀ v ∈ items, v.write.depth < depth) : depthItems (writeItems items) < depth := by
  induction items with
  | nil => exact hdepth
  | cons v vs ih =>
    rw [List.forall_mem_cons] at h
    exact max_lt h.1 (ih h.2)

theorem depthEntries_writeFields_lt {fields : List (String × Value)} {depth : Nat}
    (hdepth : 0 < depth) (h : ∀ e ∈ fields, e.2.write.depth < depth) :
    depthEntries (writeFields fields) < depth := by
  induction fields with
  | nil => exact hdepth
  | cons e es ih =>
    obtain ⟨k, v⟩ := e
    rw [List.forall_mem_cons] at h
    exact max_lt (max_lt hdepth h.1) (ih h.2)

theorem writeItems_eq_map (items : List Value) : writeItems items = items.map Value.write := by
  induction items with
  | nil => rfl
  | cons v vs ih => simp [writeItems, ih]

theorem writeFields_eq_map (fields : List (String × Value)) :
    writeFields fields = fields.map fun e => (.str e.1, e.2.write) := by
  induction fields with
  | nil => rfl
  | cons e es ih =>
    obtain ⟨k, v⟩ := e
    simp [writeFields, ih]

structure Value.Storable (layout : FloatLayout) (depth : Nat) (row : Value) : Prop where
  ordered : row.Ordered
  depth_lt : row.write.depth < depth
  fits : row.write.Fits layout

theorem storable_number {n : Int} {depth : Nat} (hdepth : 0 < depth) (hlow : -2 ^ 63 ≤ n)
    (hhigh : n < 256 ^ 8) : (Value.number (.int n)).Storable layout depth := by
  refine ⟨trivial, ?_, ?_⟩
  all_goals
    rw [Value.write]
    split
  · exact hdepth
  · exact hdepth
  · exact fits_uint (by omega)
  · exact ⟨hlow, by omega⟩

theorem storable_array {items : List Value} {depth : Nat} (hdepth : 0 < depth)
    (hlength : items.length < 256 ^ 4) (h : ∀ v ∈ items, v.Storable layout depth) :
    (Value.array items).Storable layout (depth + 1) := by
  refine ⟨orderedItems_iff.mpr fun v hv => (h v hv).ordered, ?_, ?_⟩
  · rw [Value.write, MsgPack.Value.depth]
    exact Nat.succ_lt_succ (depthItems_writeItems_lt hdepth fun v hv => (h v hv).depth_lt)
  · rw [Value.write, writeItems_eq_map]
    refine fits_array (by rwa [List.length_map]) ?_
    intro v hv
    obtain ⟨item, hitem, rfl⟩ := List.mem_map.mp hv
    exact (h item hitem).fits

theorem storable_object {fields : List (String × Value)} {depth : Nat} (hdepth : 0 < depth)
    (hordered : OrderedScan.Ordered fields) (hlength : fields.length < 256 ^ 4)
    (h : ∀ e ∈ fields, (MsgPack.Value.str e.1).Fits layout ∧ e.2.Storable layout depth) :
    (Value.object fields).Storable layout (depth + 1) := by
  refine ⟨⟨hordered, orderedFields_iff.mpr fun e he => (h e he).2.ordered⟩, ?_, ?_⟩
  · rw [Value.write, MsgPack.Value.depth]
    exact Nat.succ_lt_succ (depthEntries_writeFields_lt hdepth fun e he => (h e he).2.depth_lt)
  · rw [Value.write, writeFields_eq_map]
    refine fits_map (by rwa [List.length_map]) ?_
    intro e he
    obtain ⟨field, hfield, rfl⟩ := List.mem_map.mp he
    exact ⟨(h field hfield).1, (h field hfield).2.fits⟩

theorem readFirstKey_eq_ok {key : MsgPack.Value} {name : String} (h : readFirstKey key = .ok name)
    (hkey : key.Bounded layout) : (MsgPack.Value.str name).Fits layout := by
  unfold readFirstKey at h
  split at h
  · cases h
    exact hkey
  · cases h

mutual
/-- Every row that was read can be written, and read again. -/
theorem storable_of_read (v : MsgPack.Value) {depth : Nat} {row : Value} (hdepth : 0 < depth)
    (hv : v.Bounded layout) (h : Value.read depth v = .ok row) : row.Storable layout depth := by
  cases v with
  | nil | bool =>
    cases h
    exact ⟨trivial, hdepth, trivial⟩
  | uint n =>
    cases h
    have hn : n < 256 ^ 8 := hv
    exact storable_number hdepth (by omega) (by omega)
  | sint n =>
    cases h
    have hn : -2 ^ 63 ≤ n ∧ n < 2 ^ 63 := hv
    exact storable_number hdepth hn.1 (by omega)
  | float x =>
    cases x <;> cases h
    · exact ⟨trivial, hdepth, hv⟩
    · exact ⟨trivial, hdepth, trivial⟩
    · exact ⟨trivial, hdepth, trivial⟩
  | str s =>
    cases h
    exact ⟨trivial, hdepth, hv⟩
  | bin | ext => cases h
  | array items =>
    rw [Value.read, Checks.bind_eq_ok] at h
    obtain ⟨inner, hinner, h⟩ := h
    obtain ⟨rows, hrows, h⟩ := Checks.bind_eq_ok.mp h
    cases h
    obtain ⟨rfl, hpos⟩ := enter_eq_ok hinner
    obtain ⟨hlength, hmem⟩ := bounded_of_mem_items hv
    have hitems := storable_of_readItems items hpos hmem hrows
    exact storable_array hpos (hitems.1 ▸ hlength) hitems.2
  | map entries =>
    rw [Value.read, Checks.bind_eq_ok] at h
    obtain ⟨inner, hinner, h⟩ := h
    obtain ⟨fields, hfields, h⟩ := Checks.bind_eq_ok.mp h
    cases h
    obtain ⟨rfl, hpos⟩ := enter_eq_ok hinner
    obtain ⟨hlength, hmem⟩ := bounded_of_mem_entries hv
    have hentries := storable_of_readEntries entries hpos hmem hfields
    have hnil : OrderedScan.Ordered ([] : List (String × Value)) := List.Pairwise.nil
    obtain ⟨hordered, hle, hfold⟩ := OrderedScan.foldl_insertEntry_cases hnil fields
    refine storable_object hpos hordered ?_ ?_
    · rw [List.length_nil, hentries.1] at hle
      omega
    · intro e he
      rcases hfold e he with hnil | hmem
      · cases hnil
      · exact hentries.2 e hmem

theorem storable_of_readItems (items : List MsgPack.Value) {depth : Nat} {rows : List Value}
    (hdepth : 0 < depth) (hitems : ∀ v ∈ items, v.Bounded layout)
    (h : readItems depth items = .ok rows) :
    rows.length = items.length ∧ ∀ row ∈ rows, row.Storable layout depth := by
  cases items with
  | nil =>
    cases h
    exact ⟨rfl, by simp⟩
  | cons v vs =>
    rw [readItems, Checks.bind_eq_ok] at h
    obtain ⟨row, hrow, h⟩ := h
    obtain ⟨others, hothers, h⟩ := Checks.bind_eq_ok.mp h
    cases h
    rw [List.forall_mem_cons] at hitems
    have hrest := storable_of_readItems vs hdepth hitems.2 hothers
    exact ⟨by simp [hrest.1],
      List.forall_mem_cons.mpr ⟨storable_of_read v hdepth hitems.1 hrow, hrest.2⟩⟩

theorem storable_of_readEntries (entries : List (MsgPack.Value × MsgPack.Value)) {first : Bool}
    {depth : Nat} {fields : List (String × Value)} (hdepth : 0 < depth)
    (hentries : ∀ e ∈ entries, e.1.Bounded layout ∧ e.2.Bounded layout)
    (h : readEntries first depth entries = .ok fields) :
    fields.length = entries.length ∧
      ∀ e ∈ fields, (MsgPack.Value.str e.1).Fits layout ∧ e.2.Storable layout depth := by
  cases entries with
  | nil =>
    cases h
    exact ⟨rfl, by simp⟩
  | cons entry entries =>
    obtain ⟨key, v⟩ := entry
    rw [List.forall_mem_cons] at hentries
    obtain ⟨name, hkey, h⟩ : ∃ name, (MsgPack.Value.str name).Fits layout ∧
        (do
          let item ← Value.read depth v
          return (name, item) :: (← readEntries false depth entries)) = .ok fields := by
      rw [readEntries] at h
      split at h
      · obtain ⟨name, hname, h⟩ := Checks.bind_eq_ok.mp h
        exact ⟨name, readFirstKey_eq_ok hname hentries.1.1, h⟩
      · obtain ⟨name, hname, h⟩ := Checks.bind_eq_ok.mp h
        exact ⟨name, readString_eq_ok hname hentries.1.1, h⟩
    obtain ⟨row, hrow, h⟩ := Checks.bind_eq_ok.mp h
    obtain ⟨others, hothers, h⟩ := Checks.bind_eq_ok.mp h
    cases h
    have hrest := storable_of_readEntries entries hdepth hentries.2 hothers
    exact ⟨by simp [hrest.1],
      List.forall_mem_cons.mpr ⟨⟨hkey, storable_of_read v hdepth hentries.1.2 hrow⟩, hrest.2⟩⟩
end

end Json

/-! ## Accepted messages -/

theorem readText_eq_ok {depth : Nat} {v : Value} {s : String} (h : readText depth v = .ok s)
    (hv : v.Bounded layout) : (Value.str s).Fits layout :=
  readString_eq_ok h hv

theorem readBucketId_eq_ok {depth : Nat} {v : Value} {b : BucketId}
    (h : readBucketId depth v = .ok b) (hv : v.Bounded layout) : (Value.str b.val).Fits layout := by
  unfold readBucketId at h
  cases hread : readString v with
  | error e =>
    rw [hread] at h
    cases h
  | ok s =>
    rw [hread] at h
    cases h
    exact readString_eq_ok hread hv

theorem fits_u64 (n : UInt64) : (Value.uint n.toNat).Fits layout := fits_uint n.toNat_lt

theorem fits_u16 (n : UInt16) : (Value.uint n.toNat).Fits layout :=
  fits_uint (n.toNat_lt.trans (by decide))

theorem fits_u8 (n : UInt8) : (Value.uint n.toNat).Fits layout :=
  fits_uint (n.toNat_lt.trans (by decide))

theorem Op.accepted {depth : Nat} {v : Value} {op : Op} (hdepth : 0 < depth)
    (hv : v.Bounded layout) (h : Op.read depth v = .ok op) :
    op.WellFormed depth ∧ op.write.Fits layout := by
  rw [Op.read, Checks.bind_eq_ok] at h
  obtain ⟨found, hfound, h⟩ := h
  split at h
  next content =>
    have hcontent := readVariant_content hfound hv
    obtain ⟨row, hrow, h⟩ := Checks.bind_eq_ok.mp h
    cases h
    have hstorable := Json.storable_of_read content hdepth hcontent hrow
    exact ⟨⟨hstorable.ordered, hstorable.depth_lt⟩,
      fits_writeVariant (fits_str (by decide)) hstorable.fits⟩
  · cases h
    exact ⟨trivial, fits_str (by decide)⟩
  · cases h
    exact ⟨trivial, fits_str (by decide)⟩
  next content =>
    obtain ⟨patch, hpatch, h⟩ := Checks.bind_eq_ok.mp h
    cases h
    have hlength := (readSeq_eq_ok hpatch (readVariant_content hfound hv)).1
    refine ⟨trivial, fits_writeVariant (fits_str (by decide)) ?_⟩
    refine fits_array (by rwa [List.length_map]) ?_
    intro v hv
    obtain ⟨b, _, rfl⟩ := List.mem_map.mp hv
    exact fits_u8 b
  · cases h

theorem BucketOp.accepted {depth : Nat} {v : Value} {op : BucketOp} (hv : v.Bounded layout)
    (h : BucketOp.read depth v = .ok op) :
    op.op.WellFormed (depth - 1) ∧ (writeStruct op.fields).Fits layout := by
  simp only [BucketOp.read, Checks.bind_eq_ok] at h
  obtain ⟨fields, hfields, lsn, _, bucketId, hbucketId, entityType, hentityType, entityId,
    hentityId, op, hop, h⟩ := h
  cases h
  obtain ⟨rfl, hpos, hfound⟩ := readFields_eq_ok hfields hv
  obtain ⟨vb, hvb, hbucketId⟩ := required_eq_ok hbucketId hfound
  obtain ⟨vt, hvt, hentityType⟩ := required_eq_ok hentityType hfound
  obtain ⟨vi, hvi, hentityId⟩ := required_eq_ok hentityId hfound
  obtain ⟨vo, hvo, hop⟩ := required_eq_ok hop hfound
  have haccepted := Op.accepted hpos hvo hop
  refine ⟨haccepted.1, fits_writeStruct (by simp [BucketOp.fields]) ?_⟩
  simp only [BucketOp.fields, List.forall_mem_cons]
  exact ⟨⟨fits_str (by decide), fits_u64 lsn⟩,
    ⟨fits_str (by decide), readBucketId_eq_ok hbucketId hvb⟩,
    ⟨fits_str (by decide), readText_eq_ok hentityType hvt⟩,
    ⟨fits_str (by decide), readText_eq_ok hentityId hvi⟩,
    ⟨fits_str (by decide), haccepted.2⟩, by simp⟩

theorem readChecksums_eq_ok {depth : Nat} {v : Value} {checksums : HashMap BucketId BucketChecksum}
    (h : readChecksums depth v = .ok checksums) (hv : v.Bounded layout) :
    (writeChecksums checksums).Fits layout := by
  unfold readChecksums at h
  split at h
  next entries =>
    obtain ⟨inner, _, h⟩ := Checks.bind_eq_ok.mp h
    obtain ⟨read, hread, h⟩ := Checks.bind_eq_ok.mp h
    cases h
    obtain ⟨hlength, hmem⟩ := bounded_of_mem_entries hv
    obtain ⟨hle, hentries⟩ := AssocMap.ofEntries_cases read
    rw [← (Checks.forall₂_of_mapM_eq_ok hread).length_eq] at hle
    refine fits_map (by rw [List.length_map]; omega) ?_
    intro e he
    obtain ⟨entry, hentry, rfl⟩ := List.mem_map.mp he
    obtain ⟨source, hsource, hchecksum⟩ :=
      (Checks.mem_of_mapM_eq_ok hread).1 _ (hentries entry hentry)
    obtain ⟨bucketId, hbucketId, hchecksum⟩ := Checks.bind_eq_ok.mp hchecksum
    obtain ⟨checksum, _, hchecksum⟩ := Checks.bind_eq_ok.mp hchecksum
    cases hchecksum
    exact ⟨readBucketId_eq_ok hbucketId (hmem source hsource).1, fits_u64 _⟩
  · cases h

def ShortNames (variants : List String) (fieldNames : String → List String) : Prop :=
  ∀ variant ∈ variants, variant.utf8ByteSize < 256 ^ 4 ∧ (fieldNames variant).length < 256 ^ 4 ∧
    ∀ name ∈ fieldNames variant, name.utf8ByteSize < 256 ^ 4

instance (variants : List String) (fieldNames : String → List String) :
    Decidable (ShortNames variants fieldNames) :=
  inferInstanceAs (Decidable (∀ _ ∈ _, _))

theorem fits_message {variants : List String} {fieldNames : String → List String}
    (hshort : ShortNames variants fieldNames) {variant : String} (hvariant : variant ∈ variants)
    {fields : List (String × Value)} (hfields : fields.map Prod.fst = fieldNames variant)
    (h : ∀ field ∈ fields, field.2.Fits layout) :
    (writeVariant variant (writeStruct fields)).Fits layout := by
  obtain ⟨hname, hlength, hnames⟩ := hshort variant hvariant
  rw [← hfields, List.length_map] at hlength
  refine fits_writeVariant (fits_str hname) (fits_writeStruct hlength ?_)
  intro field hfield
  exact ⟨fits_str (hnames _ (hfields ▸ List.mem_map_of_mem hfield)), h field hfield⟩

theorem ServerMessage.fits {msg : ServerMessage} (h : ∀ field ∈ msg.fields, field.2.Fits layout) :
    (encodeServer msg).Fits layout := by
  have hshort : ShortNames variants fieldNames := by decide
  refine fits_message hshort ?_ ?_ h
  · cases msg <;> simp [variant, variants]
  · cases msg <;> rfl

theorem ServerMessage.accepted {depth : Nat} {v : Value} {msg : ServerMessage}
    (hv : v.Bounded layout) (h : ServerMessage.read (depth + 4) v = .ok msg) :
    msg.WellFormed (depth + 4) ∧ (encodeServer msg).Fits layout := by
  rw [ServerMessage.read, Checks.bind_eq_ok] at h
  obtain ⟨found, hvariant, h⟩ := h
  split at h
  next content =>
    simp only [Checks.bind_eq_ok] at h
    obtain ⟨fields, hfields, bucketId, hbucketId, totalRows, _, version, _, h⟩ := h
    cases h
    obtain ⟨_, _, hfound⟩ := readFields_eq_ok hfields (readVariant_content hvariant hv)
    obtain ⟨vb, hvb, hbucketId⟩ := required_eq_ok hbucketId hfound
    refine ⟨trivial, ServerMessage.fits ?_⟩
    simp only [ServerMessage.fields, List.forall_mem_cons]
    exact ⟨readBucketId_eq_ok hbucketId hvb, fits_u64 _, fits_u8 _, by simp⟩
  next content =>
    simp only [Checks.bind_eq_ok] at h
    obtain ⟨fields, hfields, bucketId, hbucketId, rows, hrows, offset, _, h⟩ := h
    cases h
    obtain ⟨hdepth, _, hfound⟩ := readFields_eq_ok hfields (readVariant_content hvariant hv)
    obtain ⟨vb, hvb, hbucketId⟩ := required_eq_ok hbucketId hfound
    obtain ⟨vr, hvr, hrows⟩ := required_eq_ok hrows hfound
    obtain ⟨hlength, hmem⟩ := readSeq_eq_ok hrows hvr
    have hstorable : ∀ row ∈ rows, row.Storable layout (depth + 2) := by
      intro row hrow
      rcases hmem row hrow with ⟨inner, item, hinner, hpos, hitem, hread⟩ | ⟨n, hn, hread⟩
      · have hstorable := Json.storable_of_read item hpos hitem hread
        rwa [show inner = depth + 2 by omega] at hstorable
      · cases hread
        exact Json.storable_number (by omega) (by omega) (by omega)
    refine ⟨fun row hrow => ⟨(hstorable row hrow).ordered, (hstorable row hrow).depth_lt⟩,
      ServerMessage.fits ?_⟩
    simp only [ServerMessage.fields, List.forall_mem_cons]
    refine ⟨readBucketId_eq_ok hbucketId hvb, fits_array (by rwa [List.length_map]) ?_,
      fits_u64 _, by simp⟩
    intro v hv
    obtain ⟨row, hrow, rfl⟩ := List.mem_map.mp hv
    exact (hstorable row hrow).fits
  next content =>
    simp only [Checks.bind_eq_ok] at h
    obtain ⟨fields, hfields, bucketId, hbucketId, checksum, _, h⟩ := h
    cases h
    obtain ⟨_, _, hfound⟩ := readFields_eq_ok hfields (readVariant_content hvariant hv)
    obtain ⟨vb, hvb, hbucketId⟩ := required_eq_ok hbucketId hfound
    refine ⟨trivial, ServerMessage.fits ?_⟩
    simp only [ServerMessage.fields, List.forall_mem_cons]
    exact ⟨readBucketId_eq_ok hbucketId hvb, fits_u64 _, by simp⟩
  next content =>
    simp only [Checks.bind_eq_ok] at h
    obtain ⟨fields, hfields, bucketId, hbucketId, ops, hops, lsn, _, h⟩ := h
    cases h
    obtain ⟨hdepth, _, hfound⟩ := readFields_eq_ok hfields (readVariant_content hvariant hv)
    obtain ⟨vb, hvb, hbucketId⟩ := required_eq_ok hbucketId hfound
    obtain ⟨vo, hvo, hops⟩ := required_eq_ok hops hfound
    obtain ⟨hlength, hmem⟩ := readSeq_eq_ok hops hvo
    have haccepted : ∀ op ∈ ops, op.op.WellFormed (depth + 1) ∧
        (writeStruct op.fields).Fits layout := by
      intro op hop
      rcases hmem op hop with ⟨inner, item, hinner, _, hitem, hread⟩ | ⟨n, _, hread⟩
      · have haccepted := BucketOp.accepted hitem hread
        rwa [show inner - 1 = depth + 1 by omega] at haccepted
      · cases hread
    refine ⟨fun op hop => (haccepted op hop).1, ServerMessage.fits ?_⟩
    simp only [ServerMessage.fields, ServerMessage.deltaFields, List.forall_mem_cons]
    refine ⟨readBucketId_eq_ok hbucketId hvb, fits_array (by rwa [List.length_map]) ?_,
      fits_u64 _, by simp⟩
    intro v hv
    obtain ⟨op, hop, rfl⟩ := List.mem_map.mp hv
    exact (haccepted op hop).2
  next content =>
    simp only [Checks.bind_eq_ok] at h
    obtain ⟨fields, hfields, lsn, _, checksums, hchecksums, h⟩ := h
    cases h
    obtain ⟨_, _, hfound⟩ := readFields_eq_ok hfields (readVariant_content hvariant hv)
    obtain ⟨vc, hvc, hchecksums⟩ := required_eq_ok hchecksums hfound
    refine ⟨trivial, ServerMessage.fits ?_⟩
    simp only [ServerMessage.fields, List.forall_mem_cons]
    exact ⟨fits_u64 _, readChecksums_eq_ok hchecksums hvc, by simp⟩
  next content =>
    simp only [Checks.bind_eq_ok] at h
    obtain ⟨fields, hfields, serverTimeMs, _, h⟩ := h
    cases h
    refine ⟨trivial, ServerMessage.fits ?_⟩
    simp only [ServerMessage.fields, List.forall_mem_cons]
    exact ⟨fits_u64 _, by simp⟩
  next content =>
    simp only [Checks.bind_eq_ok] at h
    obtain ⟨fields, hfields, code, _, message, hmessage, h⟩ := h
    cases h
    obtain ⟨_, _, hfound⟩ := readFields_eq_ok hfields (readVariant_content hvariant hv)
    obtain ⟨vm, hvm, hmessage⟩ := required_eq_ok hmessage hfound
    refine ⟨trivial, ServerMessage.fits ?_⟩
    simp only [ServerMessage.fields, List.forall_mem_cons]
    exact ⟨fits_u16 _, readText_eq_ok hmessage hvm, by simp⟩
  · cases h

theorem ClientMessage.fits {msg : ClientMessage} (h : ∀ field ∈ msg.fields, field.2.Fits layout) :
    (encodeClient msg).Fits layout := by
  have hshort : ShortNames variants fieldNames := by decide
  cases msg with
  | ping => exact fits_str (by decide)
  | subscribe | ack | write => exact fits_message hshort (by simp [variants, variant]) rfl h

theorem ClientMessage.accepted {depth : Nat} {v : Value} {msg : ClientMessage}
    (hv : v.Bounded layout) (h : ClientMessage.read (depth + 1) v = .ok msg) :
    msg.WellFormed (depth + 1) ∧ (encodeClient msg).Fits layout := by
  rw [ClientMessage.read, Checks.bind_eq_ok] at h
  obtain ⟨found, hvariant, h⟩ := h
  split at h
  next content =>
    simp only [Checks.bind_eq_ok] at h
    obtain ⟨fields, hfields, buckets, hbuckets, token, htoken, resumeLsn, _, version, _, h⟩ := h
    cases h
    obtain ⟨_, _, hfound⟩ := readFields_eq_ok hfields (readVariant_content hvariant hv)
    obtain ⟨vb, hvb, hbuckets⟩ := required_eq_ok hbuckets hfound
    obtain ⟨vt, hvt, htoken⟩ := required_eq_ok htoken hfound
    obtain ⟨hlength, hmem⟩ := readSeq_eq_ok hbuckets hvb
    refine ⟨trivial, ClientMessage.fits ?_⟩
    simp only [ClientMessage.fields, List.forall_mem_cons]
    refine ⟨fits_array (by rwa [List.length_map]) ?_, readText_eq_ok htoken hvt, ?_, fits_u8 _,
      by simp⟩
    · intro v hv
      obtain ⟨bucket, hbucket, rfl⟩ := List.mem_map.mp hv
      rcases hmem bucket hbucket with ⟨_, item, _, _, hitem, hread⟩ | ⟨n, _, hread⟩
      · exact readText_eq_ok hread hitem
      · cases hread
    · cases resumeLsn with
      | none => trivial
      | some lsn => exact fits_u64 lsn
  next content =>
    simp only [Checks.bind_eq_ok] at h
    obtain ⟨fields, hfields, lsn, _, h⟩ := h
    cases h
    refine ⟨trivial, ClientMessage.fits ?_⟩
    simp only [ClientMessage.fields, List.forall_mem_cons]
    exact ⟨fits_u64 _, by simp⟩
  next content =>
    simp only [Checks.bind_eq_ok] at h
    obtain ⟨fields, hfields, entityType, hentityType, entityId, hentityId, op, hop, h⟩ := h
    cases h
    obtain ⟨hdepth, hpos, hfound⟩ := readFields_eq_ok hfields (readVariant_content hvariant hv)
    obtain ⟨vt, hvt, hentityType⟩ := required_eq_ok hentityType hfound
    obtain ⟨vi, hvi, hentityId⟩ := required_eq_ok hentityId hfound
    obtain ⟨vo, hvo, hop⟩ := required_eq_ok hop hfound
    have haccepted := Op.accepted hpos hvo hop
    rw [show fields.depth = depth + 1 - 1 by omega] at haccepted
    refine ⟨haccepted.1, ClientMessage.fits ?_⟩
    simp only [ClientMessage.fields, List.forall_mem_cons]
    exact ⟨readText_eq_ok hentityType hvt, readText_eq_ok hentityId hvi, haccepted.2, by simp⟩
  · cases h
    exact ⟨trivial, fits_str (by decide)⟩
  · cases h
    exact ⟨trivial, fits_str (by decide)⟩
  · cases h

/-- Every message with ordered JSON below the depth limit, numbers of 64 bits and lengths of 32
bits is read from its frame, also with further fields in the maps and with further bytes behind
it, and it is not read from any shorter piece of the frame. -/
theorem frames_of_wellFormed (layout : FloatLayout) :
    (∀ msg : ServerMessage, msg.WellFormed depthLimit →
      ∀ content, msg.ExtendedContent depthLimit content →
        (writeVariant msg.variant content).Fits layout →
        Frames (decodeServerBytes layout) ((writeVariant msg.variant content).bytes layout) msg) ∧
    ∀ msg : ClientMessage, msg.WellFormed depthLimit →
      ((encodeClient msg).Fits layout →
        Frames (decodeClientBytes layout) (encodeClientBytes layout msg) msg) ∧
      ∀ content, msg ≠ .ping →
        ExtendedStruct (ClientMessage.fieldNames msg.variant) depthLimit msg.fields content →
        (writeVariant msg.variant content).Fits layout →
        Frames (decodeClientBytes layout)
          ((writeVariant msg.variant content).bytes layout) msg := by
  constructor
  · intro msg hmsg content hcontent hfits
    change msg.WellFormed (1019 + 5) at hmsg
    exact decodeBytes_frames hfits (ServerMessage.read_extended hmsg hcontent)
  · intro msg hmsg
    constructor
    · intro hfits
      exact decodeBytes_frames hfits (decodeClient_encodeClient hmsg)
    · intro content hping hcontent hfits
      exact decodeBytes_frames hfits (decodeClient_extended hmsg hping hcontent)

private def laterAck : Value := .map [(.str "region", .nil), (.str "lsn", .uint 5)]

private theorem fits_laterAck : (writeVariant "Ack" laterAck).Fits FloatLayout.plain := by
  refine fits_writeVariant (fits_str (by decide)) (fits_map (by decide) ?_)
  simp only [List.forall_mem_cons]
  exact ⟨⟨fits_str (by decide), trivial⟩, ⟨fits_str (by decide), fits_uint (by decide)⟩, by simp⟩

theorem frames_of_wellFormed_keepalive :
    decodeServerBytes FloatLayout.plain
      ([0x81, 0xa9] ++ utf8 "Keepalive" ++ [0x81, 0xae] ++ utf8 "server_time_ms" ++
        [0xcd, 0x01, 0x00, 0xff]) = .ok (.keepalive 256) ∧
    decodeClientBytes FloatLayout.plain
      ([0x81, 0xa3] ++ utf8 "Ack" ++ [0x82, 0xa6] ++ utf8 "region" ++ [0xc0, 0xa3] ++ utf8 "lsn" ++
        [0x05, 0xff]) = .ok (.ack 5) := by
  have hkeepalive := ((frames_of_wellFormed FloatLayout.plain).1 (.keepalive 256) trivial _
    (ServerMessage.extendedContent_writeStruct _ _) (ServerMessage.fits (by
      simp only [ServerMessage.fields, List.forall_mem_cons]
      exact ⟨fits_u64 _, by simp⟩))).1 [0xff]
  have hextended : ExtendedStruct (ClientMessage.fieldNames "Ack") depthLimit
      (ClientMessage.ack 5).fields laterAck :=
    ⟨_, rfl, .insert (by decide : "region" ∉ ClientMessage.fieldNames "Ack") (by decide) (.refl _)⟩
  have hack := (((frames_of_wellFormed FloatLayout.plain).2 (.ack 5) trivial).2 laterAck (by simp)
    hextended fits_laterAck).1 [0xff]
  exact ⟨hkeepalive, hack⟩

/-- Whatever a decoder accepts, its re-encoding is a frame of the same message. -/
theorem frames_of_accepted (layout : FloatLayout) :
    (∀ frame msg, decodeServerBytes layout frame = .ok msg →
      Frames (decodeServerBytes layout) (encodeServerBytes layout msg) msg) ∧
    ∀ frame msg, decodeClientBytes layout frame = .ok msg →
      Frames (decodeClientBytes layout) (encodeClientBytes layout msg) msg := by
  constructor
  · intro frame msg h
    obtain ⟨v, hv, hdecode⟩ := decodeBytes_eq_ok h
    have haccepted : msg.WellFormed (1020 + 4) ∧ _ := ServerMessage.accepted hv hdecode
    exact decodeBytes_frames haccepted.2 (decodeServer_encodeServer haccepted.1)
  · intro frame msg h
    obtain ⟨v, hv, hdecode⟩ := decodeBytes_eq_ok h
    have haccepted : msg.WellFormed (1023 + 1) ∧ _ := ClientMessage.accepted hv hdecode
    exact decodeBytes_frames haccepted.2 (decodeClient_encodeClient haccepted.1)

/-- A frame with its fields in an array is accepted; the message is written with a map. -/
theorem frames_of_accepted_array :
    decodeServerBytes FloatLayout.plain (encodeServerBytes FloatLayout.plain (.keepalive 256)) =
      .ok (.keepalive 256) := by
  have harray : decodeServerBytes FloatLayout.plain
      ([0x81, 0xa9] ++ utf8 "Keepalive" ++ [0x91, 0xcd, 0x01, 0x00]) = .ok (.keepalive 256) := by
    rfl
  have hframe := ((frames_of_accepted FloatLayout.plain).1 _ _ harray).1 []
  rwa [List.append_nil] at hframe

end EntitySync
