import EntitySync.Library.BigEndian
import EntitySync.Library.MsgPack

/-!
# The byte layout of MessagePack

Every value starts with a head: a marker, and behind some markers a number or a length in big-endian
bytes. An encoder takes the shortest head that has room. Reading needs no end marker: the bytes of
a value determine where it ends, so what follows them is left alone and no shorter piece of them is
a value.
-/

namespace MsgPack

/-- How doubles and singles are stored. Not every text is that of a double, see `Value.Fits`. -/
structure FloatLayout where
  toBits : Float64 → UInt64
  ofBits : UInt64 → Float64
  ofSingleBits : UInt32 → Float64
  ofBits_toBits_ofBits : ∀ bits, ofBits (toBits (ofBits bits)) = ofBits bits
  ofBits_toBits_ofSingleBits : ∀ bits, ofBits (toBits (ofSingleBits bits)) = ofSingleBits bits

def FloatLayout.plain : FloatLayout :=
  ⟨fun _ => 0, fun _ => .nan, fun _ => .nan, by simp, by simp⟩

/-- What a marker announces, together with the number behind it. -/
inductive Head where
  | nil
  | bool (b : Bool)
  | uint (n : Nat)
  | sint (n : Int)
  | float (x : Float64)
  | str (length : Nat)
  | bin (length : Nat)
  | array (length : Nat)
  | map (length : Nat)
  | ext (length : Nat)

/-- A marker with a number behind it: the first of the widths that the number fits. -/
def sizedHead : List (Nat × UInt8) → Nat → List UInt8
  | [], _ => []
  | [(width, marker)], n => marker :: BigEndian.bytes width n
  | (width, marker) :: wider, n =>
    if n < 256 ^ width then marker :: BigEndian.bytes width n else sizedHead wider n

/-- Numbers below the limit are part of the marker. -/
def shortHead (base limit : Nat) (sized : List (Nat × UInt8)) (n : Nat) : List UInt8 :=
  if n < limit then [UInt8.ofNat (base + n)] else sizedHead sized n

def uintHead : Nat → List UInt8 :=
  shortHead 0 128 [(1, 0xcc), (2, 0xcd), (4, 0xce), (8, 0xcf)]

def strHead : Nat → List UInt8 := shortHead 0xa0 32 [(1, 0xd9), (2, 0xda), (4, 0xdb)]

def binHead : Nat → List UInt8 := sizedHead [(1, 0xc4), (2, 0xc5), (4, 0xc6)]

def arrayHead : Nat → List UInt8 := shortHead 0x90 16 [(2, 0xdc), (4, 0xdd)]

def mapHead : Nat → List UInt8 := shortHead 0x80 16 [(2, 0xde), (4, 0xdf)]

def extHead (n : Nat) : List UInt8 :=
  match n with
  | 1 => [0xd4]
  | 2 => [0xd5]
  | 4 => [0xd6]
  | 8 => [0xd7]
  | 16 => [0xd8]
  | n => sizedHead [(1, 0xc7), (2, 0xc8), (4, 0xc9)] n

def complement (width : Nat) (n : Int) : List UInt8 :=
  BigEndian.bytes width (256 ^ width + n).toNat

/-- A signed number; one that is not negative is written like an unsigned one. -/
def sintHead (n : Int) : List UInt8 :=
  if 0 ≤ n then uintHead n.toNat
  else if -32 ≤ n then complement 1 n
  else if -2 ^ 7 ≤ n then 0xd0 :: complement 1 n
  else if -2 ^ 15 ≤ n then 0xd1 :: complement 2 n
  else if -2 ^ 31 ≤ n then 0xd2 :: complement 4 n
  else 0xd3 :: complement 8 n

def Head.bytes (layout : FloatLayout) : Head → List UInt8
  | .nil => [0xc0]
  | .bool b => [if b then 0xc3 else 0xc2]
  | .uint n => uintHead n
  | .sint n => sintHead n
  | .float x => 0xcb :: BigEndian.bytes 8 (layout.toBits x).toNat
  | .str n => strHead n
  | .bin n => binHead n
  | .array n => arrayHead n
  | .map n => mapHead n
  | .ext n => extHead n

def utf8 (s : String) : List UInt8 := s.toByteArray.data.toList

mutual
def Value.bytes (layout : FloatLayout) : Value → List UInt8
  | .nil => Head.nil.bytes layout
  | .bool b => (Head.bool b).bytes layout
  | .uint n => (Head.uint n).bytes layout
  | .sint n => (Head.sint n).bytes layout
  | .float x => (Head.float x).bytes layout
  | .str s => (Head.str (utf8 s).length).bytes layout ++ utf8 s
  | .bin raw => (Head.bin raw.length).bytes layout ++ raw
  | .array items => (Head.array items.length).bytes layout ++ itemBytes layout items
  | .map entries => (Head.map entries.length).bytes layout ++ entryBytes layout entries
  | .ext kind raw => (Head.ext raw.length).bytes layout ++ complement 1 kind ++ raw

def itemBytes (layout : FloatLayout) : List Value → List UInt8
  | [] => []
  | v :: vs => v.bytes layout ++ itemBytes layout vs

def entryBytes (layout : FloatLayout) : List (Value × Value) → List UInt8
  | [] => []
  | (k, v) :: es => k.bytes layout ++ v.bytes layout ++ entryBytes layout es
end

abbrev Reader (α : Type) := List UInt8 → Option (α × List UInt8)

def readBytes (n : Nat) : Reader (List UInt8) := fun input =>
  if n ≤ input.length then some (input.take n, input.drop n) else none

def readNat (width : Nat) : Reader Nat := fun input => do
  let (raw, rest) ← readBytes width input
  return (BigEndian.value raw, rest)

def readInt (width : Nat) : Reader Int := fun input => do
  let (n, rest) ← readNat width input
  return (if 2 * n < 256 ^ width then (n : Int) else (n : Int) - 256 ^ width, rest)

def readSized (width : Nat) (head : Nat → Head) : Reader Head := fun input => do
  let (n, rest) ← readNat width input
  return (head n, rest)

def readSigned (width : Nat) : Reader Head := fun input => do
  let (n, rest) ← readInt width input
  return (.sint n, rest)

/-- The markers between `0xc0` and `0xdf`; `0xc1` is not used. -/
def readMarked (layout : FloatLayout) (marker : Nat) : Reader Head :=
  match marker with
  | 0xc0 => fun rest => some (.nil, rest)
  | 0xc2 => fun rest => some (.bool false, rest)
  | 0xc3 => fun rest => some (.bool true, rest)
  | 0xc4 => readSized 1 .bin
  | 0xc5 => readSized 2 .bin
  | 0xc6 => readSized 4 .bin
  | 0xc7 => readSized 1 .ext
  | 0xc8 => readSized 2 .ext
  | 0xc9 => readSized 4 .ext
  | 0xca => readSized 4 fun n => .float (layout.ofSingleBits (.ofNat n))
  | 0xcb => readSized 8 fun n => .float (layout.ofBits (.ofNat n))
  | 0xcc => readSized 1 .uint
  | 0xcd => readSized 2 .uint
  | 0xce => readSized 4 .uint
  | 0xcf => readSized 8 .uint
  | 0xd0 => readSigned 1
  | 0xd1 => readSigned 2
  | 0xd2 => readSigned 4
  | 0xd3 => readSigned 8
  | 0xd4 => fun rest => some (.ext 1, rest)
  | 0xd5 => fun rest => some (.ext 2, rest)
  | 0xd6 => fun rest => some (.ext 4, rest)
  | 0xd7 => fun rest => some (.ext 8, rest)
  | 0xd8 => fun rest => some (.ext 16, rest)
  | 0xd9 => readSized 1 .str
  | 0xda => readSized 2 .str
  | 0xdb => readSized 4 .str
  | 0xdc => readSized 2 .array
  | 0xdd => readSized 4 .array
  | 0xde => readSized 2 .map
  | 0xdf => readSized 4 .map
  | _ => fun _ => none

def readHead (layout : FloatLayout) : Reader Head
  | [] => none
  | marker :: rest =>
    if marker.toNat < 0x80 then some (.uint marker.toNat, rest)
    else if marker.toNat < 0x90 then some (.map (marker.toNat - 0x80), rest)
    else if marker.toNat < 0xa0 then some (.array (marker.toNat - 0x90), rest)
    else if marker.toNat < 0xc0 then some (.str (marker.toNat - 0xa0), rest)
    else if 0xe0 ≤ marker.toNat then some (.sint ((marker.toNat : Int) - 256), rest)
    else readMarked layout marker.toNat rest

section
variable {α : Type}

def readMany (read : Reader α) : Nat → Reader (List α)
  | 0, input => some ([], input)
  | n + 1, input => do
    let (x, rest) ← read input
    let (xs, rest) ← readMany read n rest
    return (x :: xs, rest)

end

def readPair (read : Reader Value) : Reader (Value × Value) := fun input => do
  let (k, rest) ← read input
  let (v, rest) ← read rest
  return ((k, v), rest)

/-- What stands behind a head; `read` reads the values one level down. -/
def readBody (read : Reader Value) : Head → Reader Value
  | .nil, rest => some (.nil, rest)
  | .bool b, rest => some (.bool b, rest)
  | .uint n, rest => some (.uint n, rest)
  | .sint n, rest => some (.sint n, rest)
  | .float x, rest => some (.float x, rest)
  | .str n, rest => do
    let (raw, rest) ← readBytes n rest
    let s ← String.fromUTF8? ⟨raw.toArray⟩
    return (.str s, rest)
  | .bin n, rest => do
    let (raw, rest) ← readBytes n rest
    return (.bin raw, rest)
  | .array n, rest => do
    let (items, rest) ← readMany read n rest
    return (.array items, rest)
  | .map n, rest => do
    let (entries, rest) ← readMany (readPair read) n rest
    return (.map entries, rest)
  | .ext n, rest => do
    let (kind, rest) ← readInt 1 rest
    let (raw, rest) ← readBytes n rest
    return (.ext kind raw, rest)

/-- The value at the front of the input, nested less deep than `fuel`. -/
def readValue (layout : FloatLayout) : Nat → Reader Value
  | 0, _ => none
  | fuel + 1, input => do
    let (head, rest) ← readHead layout input
    readBody (readValue layout fuel) head rest

/-- A value takes at least one byte for each level, so the length of the input is fuel enough. -/
def parse (layout : FloatLayout) : Reader Value := fun input =>
  readValue layout (input.length + 1) input

def Head.Fits (layout : FloatLayout) : Head → Prop
  | .uint n => n < 256 ^ 8
  | .sint n => -2 ^ 63 ≤ n ∧ n < 0
  | .float x => layout.ofBits (layout.toBits x) = x
  | .str n | .bin n | .array n | .map n | .ext n => n < 256 ^ 4
  | .nil | .bool _ => True

/-- The head is one that can be read, also of a signed number that is not negative. -/
def Head.Bounded (layout : FloatLayout) : Head → Prop
  | .sint n => -2 ^ 63 ≤ n ∧ n < 2 ^ 63
  | head => head.Fits layout

mutual
def Value.Heads (p : Head → Prop) : Value → Prop
  | .nil => p .nil
  | .bool b => p (.bool b)
  | .uint n => p (.uint n)
  | .sint n => p (.sint n)
  | .float x => p (.float x)
  | .str s => p (.str (utf8 s).length)
  | .bin raw => p (.bin raw.length)
  | .array items => p (.array items.length) ∧ headsItems p items
  | .map entries => p (.map entries.length) ∧ headsEntries p entries
  | .ext kind raw => p (.ext raw.length) ∧ -128 ≤ kind ∧ kind < 128

def headsItems (p : Head → Prop) : List Value → Prop
  | [] => True
  | v :: vs => v.Heads p ∧ headsItems p vs

def headsEntries (p : Head → Prop) : List (Value × Value) → Prop
  | [] => True
  | (k, v) :: es => k.Heads p ∧ v.Heads p ∧ headsEntries p es
end

/-- Numbers of 64 bits, doubles, and lengths of 32 bits. -/
def Value.Fits (layout : FloatLayout) (v : Value) : Prop := v.Heads (Head.Fits layout)

theorem headsItems_iff {p : Head → Prop} {items : List Value} :
    headsItems p items ↔ ∀ v ∈ items, v.Heads p := by
  induction items with
  | nil => simp [headsItems]
  | cons v vs ih => simp [headsItems, ih]

theorem headsEntries_iff {p : Head → Prop} {entries : List (Value × Value)} :
    headsEntries p entries ↔ ∀ e ∈ entries, e.1.Heads p ∧ e.2.Heads p := by
  induction entries with
  | nil => simp [headsEntries]
  | cons e es ih =>
    obtain ⟨k, v⟩ := e
    simp only [headsEntries, ih, List.forall_mem_cons, and_assoc]

variable {layout : FloatLayout}

/-! ## Neighbouring numbers -/

def DifferAtEnd (xs ys : List UInt8) : Prop :=
  ∃ front x y, x ≠ y ∧ xs = front ++ [x] ∧ ys = front ++ [y]

theorem DifferAtEnd.append {xs ys : List UInt8} (h : DifferAtEnd xs ys) (front : List UInt8) :
    DifferAtEnd (front ++ xs) (front ++ ys) := by
  obtain ⟨middle, x, y, hne, rfl, rfl⟩ := h
  exact ⟨front ++ middle, x, y, hne, by simp, by simp⟩

theorem ofNat_even_ne (k : Nat) : UInt8.ofNat (2 * k) ≠ UInt8.ofNat (2 * k + 1) := by
  intro h
  have hmod := congrArg UInt8.toNat h
  simp only [UInt8.toNat_ofNat'] at hmod
  omega

theorem differAtEnd_bytes (width k : Nat) :
    DifferAtEnd (BigEndian.bytes (width + 1) (2 * k))
      (BigEndian.bytes (width + 1) (2 * k + 1)) := by
  refine ⟨_, _, _, ofNat_even_ne k, BigEndian.bytes_succ_eq_concat width (2 * k), ?_⟩
  rw [BigEndian.bytes_succ_eq_concat, show (2 * k + 1) / 256 = 2 * k / 256 by omega]

/-- An even number and the next one have heads of the same width. -/
theorem differAtEnd_uintHead (k : Nat) : DifferAtEnd (uintHead (2 * k)) (uintHead (2 * k + 1)) := by
  have hlimit (m : Nat) : 2 * k + 1 < 2 * m ↔ 2 * k < 2 * m := by omega
  have hsized (width : Nat) (marker : UInt8) : DifferAtEnd
      (marker :: BigEndian.bytes (width + 1) (2 * k))
      (marker :: BigEndian.bytes (width + 1) (2 * k + 1)) :=
    (differAtEnd_bytes width k).append [marker]
  simp only [uintHead, shortHead, sizedHead, hlimit 64, hlimit 128, hlimit 32768, hlimit (2 ^ 31),
    show 256 ^ 1 = 2 * 128 from rfl, show 256 ^ 2 = 2 * 32768 from rfl,
    show 256 ^ 4 = 2 * 2 ^ 31 from rfl, show 128 = 2 * 64 from rfl]
  split
  · exact ⟨[], _, _, by simp, rfl, rfl⟩
  split
  · exact hsized 0 _
  split
  · exact hsized 1 _
  split
  · exact hsized 3 _
  · exact hsized 7 _

/-! ## Reading back -/

theorem readBytes_append (raw rest : List UInt8) :
    readBytes raw.length (raw ++ rest) = some (raw, rest) := by
  simp [readBytes]

theorem readNat_bytes {width n : Nat} (h : n < 256 ^ width) (rest : List UInt8) :
    readNat width (BigEndian.bytes width n ++ rest) = some (n, rest) := by
  have hraw := readBytes_append (BigEndian.bytes width n) rest
  rw [BigEndian.length_bytes] at hraw
  simp [readNat, hraw, BigEndian.value_bytes_of_lt h]

theorem readSized_bytes {width n : Nat} (h : n < 256 ^ width) (head : Nat → Head)
    (rest : List UInt8) :
    readSized width head (BigEndian.bytes width n ++ rest) = some (head n, rest) := by
  simp [readSized, readNat_bytes h]

theorem readInt_complement {width : Nat} {n : Int} (hlow : -(256 ^ width) ≤ 2 * n)
    (hhigh : 2 * n < 256 ^ width) (rest : List UInt8) :
    readInt width (complement width n ++ rest) = some (n, rest) := by
  have hraw := readBytes_append (complement width n) rest
  rw [complement, BigEndian.length_bytes, ← complement] at hraw
  have hpos : 0 < 256 ^ width := Nat.pow_pos (by omega)
  have hcast : ((256 ^ width : Nat) : Int) = 256 ^ width := by push_cast; rfl
  have hvalue : BigEndian.value (complement width n) =
      (if 0 ≤ n then n else 256 ^ width + n).toNat := by
    rw [complement, BigEndian.value_bytes]
    rw [← hcast] at hlow hhigh ⊢
    generalize 256 ^ width = m at hlow hhigh hpos ⊢
    by_cases hn : 0 ≤ n
    · rw [if_pos hn, show ((m : Int) + n).toNat = n.toNat + m by omega, Nat.add_mod_right,
        Nat.mod_eq_of_lt (by omega)]
    · rw [if_neg hn, Nat.mod_eq_of_lt (by omega)]
  simp only [readInt, readNat, hraw, hvalue, Option.bind_eq_bind, Option.bind_some,
    Option.pure_def]
  rw [← hcast] at hlow hhigh ⊢
  generalize 256 ^ width = m at hlow hhigh hpos ⊢
  congr 2
  by_cases hn : 0 ≤ n
  · rw [if_pos hn, if_pos (by omega)]
    omega
  · rw [if_neg hn, if_neg (by omega)]
    omega

theorem readHead_sizedHead {sized : List (Nat × UInt8)} {head : Nat → Head}
    (hmarkers : ∀ s ∈ sized, ∀ rest, readHead layout (s.2 :: rest) = readSized s.1 head rest)
    {n : Nat} (hfits : ∃ s ∈ sized, n < 256 ^ s.1) (rest : List UInt8) :
    readHead layout (sizedHead sized n ++ rest) = some (head n, rest) := by
  induction sized with
  | nil => simp at hfits
  | cons s wider ih =>
    obtain ⟨width, marker⟩ := s
    rw [List.forall_mem_cons] at hmarkers
    have hmarked (h : n < 256 ^ width) :
        readHead layout (marker :: BigEndian.bytes width n ++ rest) = some (head n, rest) := by
      rw [List.cons_append, hmarkers.1]
      exact readSized_bytes h head rest
    cases wider with
    | nil =>
      obtain ⟨s, hs, hn⟩ := hfits
      rw [List.mem_singleton.mp hs] at hn
      exact hmarked hn
    | cons next wider =>
      show readHead layout ((if n < 256 ^ width then marker :: BigEndian.bytes width n
        else sizedHead (next :: wider) n) ++ rest) = _
      split
      next h => exact hmarked h
      next h =>
        apply ih hmarkers.2
        obtain ⟨s, hs, hn⟩ := hfits
        rcases List.mem_cons.mp hs with rfl | hs
        · exact absurd hn h
        · exact ⟨s, hs, hn⟩

theorem readHead_shortHead {base limit : Nat} {sized : List (Nat × UInt8)} {head : Nat → Head}
    (hshort : ∀ n < limit, ∀ rest,
      readHead layout (UInt8.ofNat (base + n) :: rest) = some (head n, rest))
    (hmarkers : ∀ s ∈ sized, ∀ rest, readHead layout (s.2 :: rest) = readSized s.1 head rest)
    {n : Nat} (hfits : ∃ s ∈ sized, n < 256 ^ s.1) (rest : List UInt8) :
    readHead layout (shortHead base limit sized n ++ rest) = some (head n, rest) := by
  rw [shortHead]
  split
  next h => exact hshort n h rest
  next => exact readHead_sizedHead hmarkers hfits rest

theorem readHead_uintHead {n : Nat} (h : n < 256 ^ 8) (rest : List UInt8) :
    readHead layout (uintHead n ++ rest) = some (.uint n, rest) := by
  apply readHead_shortHead
  · intro n hn rest
    have hmarker : (UInt8.ofNat (0 + n)).toNat = n := by simp; omega
    simp only [readHead, hmarker]
    rw [if_pos (by omega)]
  · simp only [List.forall_mem_cons]
    exact ⟨fun _ => rfl, fun _ => rfl, fun _ => rfl, fun _ => rfl, by simp⟩
  · exact ⟨(8, 0xcf), by simp, h⟩

theorem readHead_strHead {n : Nat} (h : n < 256 ^ 4) (rest : List UInt8) :
    readHead layout (strHead n ++ rest) = some (.str n, rest) := by
  apply readHead_shortHead
  · intro n hn rest
    have hmarker : (UInt8.ofNat (0xa0 + n)).toNat = 0xa0 + n := by simp; omega
    simp only [readHead, hmarker]
    rw [if_neg (by omega), if_neg (by omega), if_neg (by omega), if_pos (by omega),
      Nat.add_sub_cancel_left]
  · simp only [List.forall_mem_cons]
    exact ⟨fun _ => rfl, fun _ => rfl, fun _ => rfl, by simp⟩
  · exact ⟨(4, 0xdb), by simp, h⟩

theorem readHead_arrayHead {n : Nat} (h : n < 256 ^ 4) (rest : List UInt8) :
    readHead layout (arrayHead n ++ rest) = some (.array n, rest) := by
  apply readHead_shortHead
  · intro n hn rest
    have hmarker : (UInt8.ofNat (0x90 + n)).toNat = 0x90 + n := by simp; omega
    simp only [readHead, hmarker]
    rw [if_neg (by omega), if_neg (by omega), if_pos (by omega), Nat.add_sub_cancel_left]
  · simp only [List.forall_mem_cons]
    exact ⟨fun _ => rfl, fun _ => rfl, by simp⟩
  · exact ⟨(4, 0xdd), by simp, h⟩

theorem readHead_mapHead {n : Nat} (h : n < 256 ^ 4) (rest : List UInt8) :
    readHead layout (mapHead n ++ rest) = some (.map n, rest) := by
  apply readHead_shortHead
  · intro n hn rest
    have hmarker : (UInt8.ofNat (0x80 + n)).toNat = 0x80 + n := by simp; omega
    simp only [readHead, hmarker]
    rw [if_neg (by omega), if_pos (by omega), Nat.add_sub_cancel_left]
  · simp only [List.forall_mem_cons]
    exact ⟨fun _ => rfl, fun _ => rfl, by simp⟩
  · exact ⟨(4, 0xdf), by simp, h⟩

theorem readHead_binHead {n : Nat} (h : n < 256 ^ 4) (rest : List UInt8) :
    readHead layout (binHead n ++ rest) = some (.bin n, rest) := by
  apply readHead_sizedHead
  · simp only [List.forall_mem_cons]
    exact ⟨fun _ => rfl, fun _ => rfl, fun _ => rfl, by simp⟩
  · exact ⟨(4, 0xc6), by simp, h⟩

theorem readHead_extHead {n : Nat} (h : n < 256 ^ 4) (rest : List UInt8) :
    readHead layout (extHead n ++ rest) = some (.ext n, rest) := by
  unfold extHead
  split
  iterate 5 rfl
  next =>
    apply readHead_sizedHead
    · simp only [List.forall_mem_cons]
      exact ⟨fun _ => rfl, fun _ => rfl, fun _ => rfl, by simp⟩
    · exact ⟨(4, 0xc9), by simp, h⟩

theorem readSigned_complement {width : Nat} {n : Int} (hlow : -(256 ^ width) ≤ 2 * n)
    (hhigh : 2 * n < 256 ^ width) (rest : List UInt8) :
    readSigned width (complement width n ++ rest) = some (.sint n, rest) := by
  simp [readSigned, readInt_complement hlow hhigh]

theorem readHead_sintHead {n : Int} (hlow : -2 ^ 63 ≤ n) (hneg : n < 0) (rest : List UInt8) :
    readHead layout (sintHead n ++ rest) = some (.sint n, rest) := by
  unfold sintHead
  rw [if_neg (by omega)]
  split
  next h =>
    have hbyte : complement 1 n = [UInt8.ofNat (256 + n).toNat] := by
      simp [complement, BigEndian.bytes]
    have hmarker : (UInt8.ofNat (256 + n).toNat).toNat = (256 + n).toNat := by
      simp
      omega
    rw [hbyte, List.cons_append, List.nil_append]
    simp only [readHead, hmarker]
    rw [if_neg (by omega), if_neg (by omega), if_neg (by omega), if_neg (by omega),
      if_pos (by omega)]
    congr 3
    omega
  next =>
    split
    next h => exact readSigned_complement (by omega) (by omega) rest
    next =>
      split
      next h => exact readSigned_complement (by omega) (by omega) rest
      next =>
        split
        next h => exact readSigned_complement (by omega) (by omega) rest
        next => exact readSigned_complement (by omega) (by omega) rest

theorem readHead_bytes {head : Head} (h : head.Fits layout) (rest : List UInt8) :
    readHead layout (head.bytes layout ++ rest) = some (head, rest) := by
  cases head with
  | nil => rfl
  | bool b => cases b <;> rfl
  | uint n => exact readHead_uintHead h rest
  | sint n => exact readHead_sintHead h.1 h.2 rest
  | float x =>
    have hbits : (layout.toBits x).toNat < 256 ^ 8 := (layout.toBits x).toNat_lt
    have hread := readSized_bytes hbits (fun n => .float (layout.ofBits (.ofNat n))) rest
    rw [UInt64.ofNat_toNat, show layout.ofBits (layout.toBits x) = x from h] at hread
    exact hread
  | str n => exact readHead_strHead h rest
  | bin n => exact readHead_binHead h rest
  | array n => exact readHead_arrayHead h rest
  | map n => exact readHead_mapHead h rest
  | ext n => exact readHead_extHead h rest

theorem fromUTF8?_utf8 (s : String) : String.fromUTF8? ⟨(utf8 s).toArray⟩ = some s := by
  have hbytes : (⟨(utf8 s).toArray⟩ : ByteArray) = s.toByteArray := by simp [utf8]
  rw [hbytes, String.fromUTF8?, dif_pos s.isValidUTF8]
  rfl

mutual

/-- A value is read back from its bytes, whatever follows them, once the fuel covers its depth. -/
theorem readValue_bytes (v : Value) {fuel : Nat} (hfits : v.Fits layout) (hfuel : v.depth < fuel)
    (rest : List UInt8) : readValue layout fuel (v.bytes layout ++ rest) = some (v, rest) := by
  obtain ⟨fuel, rfl⟩ := Nat.exists_eq_add_one_of_ne_zero (Nat.ne_zero_of_lt hfuel)
  cases v with
  | nil => rfl
  | bool b => cases b <;> rfl
  | uint n =>
    rw [Value.Fits, Value.Heads] at hfits
    simp [readValue, readBody, Value.bytes, readHead_bytes hfits]
  | sint n =>
    rw [Value.Fits, Value.Heads] at hfits
    simp [readValue, readBody, Value.bytes, readHead_bytes hfits]
  | float x =>
    rw [Value.Fits, Value.Heads] at hfits
    simp [readValue, readBody, Value.bytes, readHead_bytes hfits]
  | str s =>
    rw [Value.Fits, Value.Heads] at hfits
    simp [readValue, readBody, Value.bytes, readHead_bytes hfits, readBytes_append,
      fromUTF8?_utf8]
  | bin raw =>
    rw [Value.Fits, Value.Heads] at hfits
    simp [readValue, readBody, Value.bytes, readHead_bytes hfits, readBytes_append]
  | array items =>
    rw [Value.Fits, Value.Heads] at hfits
    have hitems := readMany_itemBytes items hfits.2 (Nat.lt_of_succ_lt_succ hfuel) rest
    simp [readValue, readBody, Value.bytes, readHead_bytes hfits.1, hitems]
  | map entries =>
    rw [Value.Fits, Value.Heads] at hfits
    have hentries := readMany_entryBytes entries hfits.2 (Nat.lt_of_succ_lt_succ hfuel) rest
    simp [readValue, readBody, Value.bytes, readHead_bytes hfits.1, hentries]
  | ext kind raw =>
    rw [Value.Fits, Value.Heads] at hfits
    have hkind (rest : List UInt8) : readInt 1 (complement 1 kind ++ rest) = some (kind, rest) :=
      readInt_complement (by omega) (by omega) rest
    simp [readValue, readBody, Value.bytes, readHead_bytes hfits.1, hkind, readBytes_append]

theorem readMany_itemBytes (items : List Value) {fuel : Nat}
    (hfits : headsItems (Head.Fits layout) items) (hfuel : depthItems items < fuel)
    (rest : List UInt8) :
    readMany (readValue layout fuel) items.length (itemBytes layout items ++ rest) =
      some (items, rest) := by
  cases items with
  | nil => rfl
  | cons v vs =>
    have hdepth : v.depth < fuel ∧ depthItems vs < fuel := max_lt_iff.mp hfuel
    simp [readMany, itemBytes, readValue_bytes v hfits.1 hdepth.1,
      readMany_itemBytes vs hfits.2 hdepth.2]

theorem readMany_entryBytes (entries : List (Value × Value)) {fuel : Nat}
    (hfits : headsEntries (Head.Fits layout) entries) (hfuel : depthEntries entries < fuel)
    (rest : List UInt8) :
    readMany (readPair (readValue layout fuel)) entries.length
      (entryBytes layout entries ++ rest) = some (entries, rest) := by
  cases entries with
  | nil => rfl
  | cons e es =>
    obtain ⟨k, v⟩ := e
    have hdepth : max k.depth v.depth < fuel ∧ depthEntries es < fuel := max_lt_iff.mp hfuel
    have hpair : k.depth < fuel ∧ v.depth < fuel := max_lt_iff.mp hdepth.1
    simp [readMany, readPair, entryBytes, readValue_bytes k hfits.1 hpair.1,
      readValue_bytes v hfits.2.1 hpair.2, readMany_entryBytes es hfits.2.2 hdepth.2]

end

/-! ## Depth and length -/

theorem sizedHead_ne_nil {sized : List (Nat × UInt8)} (h : sized ≠ []) (n : Nat) :
    sizedHead sized n ≠ [] := by
  fun_induction sizedHead sized n <;> simp_all

theorem shortHead_length_pos {base limit : Nat} {sized : List (Nat × UInt8)} (h : sized ≠ [])
    (n : Nat) : 0 < (shortHead base limit sized n).length := by
  apply List.length_pos_of_ne_nil
  rw [shortHead]
  split
  · simp
  · exact sizedHead_ne_nil h n

mutual

theorem Value.depth_le_length_bytes (layout : FloatLayout) (v : Value) :
    v.depth ≤ (v.bytes layout).length := by
  cases v with
  | array items =>
    have hhead : 0 < (arrayHead items.length).length := shortHead_length_pos (by simp) _
    have hitems := depthItems_le_length_itemBytes layout items
    simp only [Value.depth, Value.bytes, Head.bytes, List.length_append]
    omega
  | map entries =>
    have hhead : 0 < (mapHead entries.length).length := shortHead_length_pos (by simp) _
    have hentries := depthEntries_le_length_entryBytes layout entries
    simp only [Value.depth, Value.bytes, Head.bytes, List.length_append]
    omega
  | ext kind raw =>
    simp only [Value.depth, Value.bytes, List.length_append, complement, BigEndian.length_bytes]
    omega
  | _ => simp [Value.depth]

theorem depthItems_le_length_itemBytes (layout : FloatLayout) (items : List Value) :
    depthItems items ≤ (itemBytes layout items).length := by
  cases items with
  | nil => exact Nat.zero_le _
  | cons v vs =>
    have hv := Value.depth_le_length_bytes layout v
    have hvs := depthItems_le_length_itemBytes layout vs
    simp only [depthItems, itemBytes, List.length_append]
    omega

theorem depthEntries_le_length_entryBytes (layout : FloatLayout) (entries : List (Value × Value)) :
    depthEntries entries ≤ (entryBytes layout entries).length := by
  cases entries with
  | nil => exact Nat.zero_le _
  | cons e es =>
    obtain ⟨k, v⟩ := e
    have hk := Value.depth_le_length_bytes layout k
    have hv := Value.depth_le_length_bytes layout v
    have hes := depthEntries_le_length_entryBytes layout es
    simp only [depthEntries, entryBytes, List.length_append]
    omega

end

theorem parse_bytes {v : Value} (hfits : v.Fits layout) (rest : List UInt8) :
    parse layout (v.bytes layout ++ rest) = some (v, rest) := by
  apply readValue_bytes v hfits
  have hdepth := v.depth_le_length_bytes layout
  rw [List.length_append]
  omega

/-! ## Inputs that go on -/

section
variable {α β : Type}

/-- What is read does not depend on what follows it. -/
def Extends (read : Reader α) : Prop :=
  ∀ input x rest, read input = some (x, rest) →
    ∀ more, read (input ++ more) = some (x, rest ++ more)

theorem extends_pure (x : α) : Extends fun input => some (x, input) := by
  intro input y rest h more
  cases h
  rfl

theorem extends_none : Extends fun _ => (none : Option (α × List UInt8)) := by
  intro input x rest h
  cases h

theorem extends_lift (x : Option α) (f : α → β) :
    Extends fun input => x.bind fun x => some (f x, input) := by
  cases x with
  | none => exact extends_none
  | some x => exact extends_pure (f x)

theorem extends_bind {read : Reader α} {next : α → Reader β} (h : Extends read)
    (hnext : ∀ x, Extends (next x)) :
    Extends fun input => (read input).bind fun p => next p.1 p.2 := by
  intro input y rest hread more
  obtain ⟨⟨x, middle⟩, hx, hy⟩ := Option.bind_eq_some_iff.mp hread
  simp only [h _ _ _ hx more, Option.bind_some]
  exact hnext x _ _ _ hy more

theorem extends_readBytes (n : Nat) : Extends (readBytes n) := by
  intro input raw rest h more
  unfold readBytes at h ⊢
  split at h
  next hlength =>
    cases h
    rw [if_pos (by rw [List.length_append]; omega), List.take_append_of_le_length hlength,
      List.drop_append_of_le_length hlength]
  next => cases h

theorem extends_readNat (width : Nat) : Extends (readNat width) :=
  extends_bind (extends_readBytes width) fun raw => extends_pure (BigEndian.value raw)

theorem extends_readInt (width : Nat) : Extends (readInt width) :=
  extends_bind (extends_readNat width) fun n =>
    extends_pure (if 2 * n < 256 ^ width then (n : Int) else (n : Int) - 256 ^ width)

theorem extends_readSized (width : Nat) (head : Nat → Head) : Extends (readSized width head) :=
  extends_bind (extends_readNat width) fun n => extends_pure (head n)

theorem extends_readSigned (width : Nat) : Extends (readSigned width) :=
  extends_bind (extends_readInt width) fun n => extends_pure (Head.sint n)

theorem extends_readMarked (marker : Nat) : Extends (readMarked layout marker) := by
  unfold readMarked
  split
  all_goals first
    | exact extends_pure _
    | exact extends_readSized _ _
    | exact extends_readSigned _
    | exact extends_none

theorem extends_readHead : Extends (readHead layout) := by
  intro input head rest h more
  cases input with
  | nil => cases h
  | cons marker input =>
    simp only [readHead, List.cons_append] at h ⊢
    split_ifs at h ⊢
    case neg => exact extends_readMarked marker.toNat _ _ _ h more
    all_goals
      cases h
      rfl

theorem extends_readMany {read : Reader α} (h : Extends read) : ∀ n, Extends (readMany read n)
  | 0 => extends_pure []
  | n + 1 => extends_bind h fun x => extends_bind (extends_readMany h n) fun xs =>
      extends_pure (x :: xs)

theorem extends_readPair {read : Reader Value} (h : Extends read) : Extends (readPair read) :=
  extends_bind h fun k => extends_bind h fun v => extends_pure (k, v)

end

theorem extends_readBody {read : Reader Value} (h : Extends read) (head : Head) :
    Extends (readBody read head) := by
  cases head with
  | str n =>
    exact extends_bind (extends_readBytes n) fun raw =>
      extends_lift (String.fromUTF8? ⟨raw.toArray⟩) Value.str
  | bin n => exact extends_bind (extends_readBytes n) fun raw => extends_pure (Value.bin raw)
  | array n =>
    exact extends_bind (extends_readMany h n) fun items => extends_pure (Value.array items)
  | map n =>
    exact extends_bind (extends_readMany (extends_readPair h) n) fun entries =>
      extends_pure (Value.map entries)
  | ext n =>
    exact extends_bind (extends_readInt 1) fun kind =>
      extends_bind (extends_readBytes n) fun raw => extends_pure (Value.ext kind raw)
  | _ => exact extends_pure _

theorem extends_readValue : ∀ fuel, Extends (readValue layout fuel)
  | 0 => extends_none
  | fuel + 1 => extends_bind extends_readHead fun head =>
      extends_readBody (extends_readValue fuel) head

/-! ## More fuel -/

section
variable {α : Type}

def Below (read more : Reader α) : Prop := ∀ input x, read input = some x → more input = some x

theorem readMany_below {read more : Reader α} (h : Below read more) :
    ∀ n, Below (readMany read n) (readMany more n) := by
  intro n
  induction n with
  | zero => exact fun _ _ h => h
  | succ n ih =>
    intro input x hread
    simp only [readMany, Option.bind_eq_bind, Option.bind_eq_some_iff] at hread ⊢
    obtain ⟨first, hfirst, others, hothers, hx⟩ := hread
    exact ⟨first, h _ _ hfirst, others, ih _ _ hothers, hx⟩

end

theorem readPair_below {read more : Reader Value} (h : Below read more) :
    Below (readPair read) (readPair more) := by
  intro input x hread
  simp only [readPair, Option.bind_eq_bind, Option.bind_eq_some_iff] at hread ⊢
  obtain ⟨k, hk, v, hv, hx⟩ := hread
  exact ⟨k, h _ _ hk, v, h _ _ hv, hx⟩

theorem readBody_below {read more : Reader Value} (h : Below read more) (head : Head) :
    Below (readBody read head) (readBody more head) := by
  intro input x hread
  cases head with
  | array n =>
    simp only [readBody, Option.bind_eq_bind, Option.bind_eq_some_iff] at hread ⊢
    obtain ⟨items, hitems, hx⟩ := hread
    exact ⟨items, readMany_below h n _ _ hitems, hx⟩
  | map n =>
    simp only [readBody, Option.bind_eq_bind, Option.bind_eq_some_iff] at hread ⊢
    obtain ⟨entries, hentries, hx⟩ := hread
    exact ⟨entries, readMany_below (readPair_below h) n _ _ hentries, hx⟩
  | _ => exact hread

theorem readValue_below_succ (fuel : Nat) :
    Below (readValue layout fuel) (readValue layout (fuel + 1)) := by
  induction fuel with
  | zero =>
    intro input x h
    cases h
  | succ fuel ih =>
    intro input x hread
    rw [readValue] at hread ⊢
    simp only [Option.bind_eq_bind, Option.bind_eq_some_iff] at hread ⊢
    obtain ⟨head, hhead, hx⟩ := hread
    exact ⟨head, hhead, readBody_below ih head.1 _ _ hx⟩

theorem readValue_below {fuel more : Nat} (h : fuel ≤ more) :
    Below (readValue layout fuel) (readValue layout more) := by
  induction more, h using Nat.le_induction with
  | base => exact fun _ _ h => h
  | succ more _ ih => exact fun input x hread => readValue_below_succ more _ _ (ih input x hread)

/-- No value can be read before its last byte has arrived. -/
theorem parse_eq_none_of_cut {v : Value} (hfits : v.Fits layout) {input more : List UInt8}
    (h : v.bytes layout = input ++ more) (hmore : more ≠ []) : parse layout input = none := by
  cases hparse : parse layout input with
  | none => rfl
  | some read =>
    obtain ⟨w, rest⟩ := read
    have hlong := extends_readValue _ _ _ _ hparse more
    have hfuel : input.length + 1 ≤ (v.bytes layout).length + 1 := by
      rw [h, List.length_append]
      omega
    have hshort := readValue_below hfuel _ _ hlong
    have hvalue := parse_bytes hfits []
    rw [← h] at hshort
    rw [List.append_nil, parse, hshort] at hvalue
    simp only [Option.some.injEq, Prod.mk.injEq, List.append_eq_nil_iff] at hvalue
    exact absurd hvalue.2.2 hmore

/-! ## What is read -/

section
variable {α β : Type}

def Yields (read : Reader α) (p : α → Prop) : Prop :=
  ∀ input x rest, read input = some (x, rest) → p x

theorem yields_pure {p : α → Prop} {x : α} (h : p x) : Yields (fun input => some (x, input)) p := by
  intro input y rest hread
  cases hread
  exact h

theorem yields_bind {read : Reader α} {next : α → Reader β} {p : α → Prop} {q : β → Prop}
    (h : Yields read p) (hnext : ∀ x, p x → Yields (next x) q) :
    Yields (fun input => (read input).bind fun r => next r.1 r.2) q := by
  intro input y rest hread
  obtain ⟨⟨x, middle⟩, hx, hy⟩ := Option.bind_eq_some_iff.mp hread
  exact hnext x (h _ _ _ hx) _ _ _ hy

theorem yields_readBytes (n : Nat) : Yields (readBytes n) fun raw => raw.length = n := by
  intro input raw rest h
  unfold readBytes at h
  split at h
  next hlength =>
    cases h
    exact List.length_take_of_le hlength
  next => cases h

theorem yields_readNat (width : Nat) : Yields (readNat width) (· < 256 ^ width) :=
  yields_bind (yields_readBytes width) fun raw hraw => yields_pure (hraw ▸ BigEndian.value_lt raw)

theorem yields_readInt (width : Nat) :
    Yields (readInt width) fun n => -(256 ^ width) ≤ 2 * n ∧ 2 * n < 256 ^ width := by
  intro input n rest h
  simp only [readInt, Option.bind_eq_bind, Option.bind_eq_some_iff, Option.pure_def,
    Option.some.injEq, Prod.mk.injEq] at h
  obtain ⟨⟨m, middle⟩, hm, rfl, rfl⟩ := h
  have hlt : m < 256 ^ width := yields_readNat width _ _ _ hm
  have hcast : ((256 ^ width : Nat) : Int) = 256 ^ width := by push_cast; rfl
  rw [← hcast]
  split <;> omega

theorem yields_readSized {width : Nat} {head : Nat → Head} {p : Head → Prop}
    (h : ∀ n < 256 ^ width, p (head n)) : Yields (readSized width head) p :=
  yields_bind (yields_readNat width) fun n hn => yields_pure (h n hn)

theorem yields_readMany {read : Reader α} {p : α → Prop} (h : Yields read p) :
    ∀ n, Yields (readMany read n) fun xs => xs.length = n ∧ ∀ x ∈ xs, p x
  | 0 => yields_pure (by simp)
  | n + 1 => yields_bind h fun x hx => yields_bind (yields_readMany h n) fun xs hxs =>
      yields_pure ⟨by simp [hxs.1], List.forall_mem_cons.mpr ⟨hx, hxs.2⟩⟩

theorem yields_none {p : α → Prop} : Yields (fun _ => (none : Option (α × List UInt8))) p := by
  intro input x rest h
  cases h

end

theorem yields_readSigned {width : Nat} (h : width ≤ 8) :
    Yields (readSigned width) (Head.Bounded layout) := by
  refine yields_bind (yields_readInt width) fun n hn => yields_pure (x := Head.sint n) ?_
  have hpow : (256 : Int) ^ width ≤ 256 ^ 8 := by
    exact_mod_cast Nat.pow_le_pow_right (by omega : 0 < 256) h
  constructor <;> omega

theorem yields_readMarked (marker : Nat) :
    Yields (readMarked layout marker) (Head.Bounded layout) := by
  have hlength {width : Nat} (h : width ≤ 4) (n : Nat) (hn : n < 256 ^ width) : n < 256 ^ 4 :=
    hn.trans_le (Nat.pow_le_pow_right (by omega) h)
  have hnumber {width : Nat} (h : width ≤ 8) (n : Nat) (hn : n < 256 ^ width) : n < 256 ^ 8 :=
    hn.trans_le (Nat.pow_le_pow_right (by omega) h)
  unfold readMarked
  split
  all_goals first
    | exact yields_none
    | exact yields_pure trivial
    | exact yields_pure (by decide : _ < 256 ^ 4)
    | exact yields_readSized (hlength (by omega))
    | exact yields_readSized (hnumber (by omega))
    | exact yields_readSigned (by omega)
    | exact yields_readSized fun n _ => layout.ofBits_toBits_ofSingleBits _
    | exact yields_readSized fun n _ => layout.ofBits_toBits_ofBits _

theorem yields_readHead : Yields (readHead layout) (Head.Bounded layout) := by
  intro input head rest h
  cases input with
  | nil => cases h
  | cons marker input =>
    have hmarker := marker.toNat_lt
    simp only [readHead] at h
    split_ifs at h
    case neg => exact yields_readMarked marker.toNat _ _ _ h
    all_goals
      cases h
      simp only [Head.Bounded, Head.Fits]
      omega

theorem utf8_of_fromUTF8? {raw : List UInt8} {s : String}
    (h : String.fromUTF8? ⟨raw.toArray⟩ = some s) : utf8 s = raw := by
  unfold String.fromUTF8? at h
  split at h
  · cases h
    rfl
  · cases h

theorem yields_readBody {read : Reader Value} (h : Yields read (Value.Heads (Head.Bounded layout)))
    {head : Head} (hhead : head.Bounded layout) :
    Yields (readBody read head) (Value.Heads (Head.Bounded layout)) := by
  cases head with
  | str n =>
    intro input v rest hread
    simp only [readBody, Option.bind_eq_bind, Option.bind_eq_some_iff, Option.pure_def,
      Option.some.injEq, Prod.mk.injEq] at hread
    obtain ⟨⟨raw, middle⟩, hraw, s, hs, rfl, rfl⟩ := hread
    rw [Value.Heads, utf8_of_fromUTF8? hs, yields_readBytes n _ _ _ hraw]
    exact hhead
  | bin n =>
    refine yields_bind (yields_readBytes n) fun raw hraw => yields_pure (x := Value.bin raw) ?_
    rw [Value.Heads, hraw]
    exact hhead
  | array n =>
    refine yields_bind (yields_readMany h n) fun items hitems =>
      yields_pure (x := Value.array items) ?_
    rw [Value.Heads, hitems.1, headsItems_iff]
    exact ⟨hhead, hitems.2⟩
  | map n =>
    have hpair : Yields (readPair read) fun e =>
        e.1.Heads (Head.Bounded layout) ∧ e.2.Heads (Head.Bounded layout) :=
      yields_bind h fun k hk => yields_bind h fun v hv => yields_pure ⟨hk, hv⟩
    refine yields_bind (yields_readMany hpair n) fun entries hentries =>
      yields_pure (x := Value.map entries) ?_
    rw [Value.Heads, hentries.1, headsEntries_iff]
    exact ⟨hhead, hentries.2⟩
  | ext n =>
    refine yields_bind (yields_readInt 1) fun kind hkind =>
      yields_bind (yields_readBytes n) fun raw hraw => yields_pure (x := Value.ext kind raw) ?_
    rw [Value.Heads, hraw]
    exact ⟨hhead, by omega, by omega⟩
  | _ => exact yields_pure hhead

theorem yields_readValue :
    ∀ fuel, Yields (readValue layout fuel) (Value.Heads (Head.Bounded layout))
  | 0 => yields_none
  | fuel + 1 => yields_bind yields_readHead fun _ hhead =>
      yields_readBody (yields_readValue fuel) hhead

end MsgPack
