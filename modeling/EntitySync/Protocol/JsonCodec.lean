import EntitySync.Core.Json
import EntitySync.Library.MsgPack
import EntitySync.Library.OrderedScan

/-!
# JSON in MessagePack

How `serde_json::Value` is written as a MessagePack value and read back. Objects are built by
insertion in key order, so only an object whose entries are in key order can be one.
-/

namespace EntitySync.Json

open MsgPack (DecodeError enter readString)

mutual
def Value.Ordered : Value → Prop
  | .array items => orderedItems items
  | .object fields => OrderedScan.Ordered fields ∧ orderedFields fields
  | .null | .bool _ | .number _ | .string _ => True

def orderedItems : List Value → Prop
  | [] => True
  | v :: vs => v.Ordered ∧ orderedItems vs

def orderedFields : List (String × Value) → Prop
  | [] => True
  | (_, v) :: vs => v.Ordered ∧ orderedFields vs
end

mutual
/-- `Serialize for Value`. -/
def Value.write : Value → MsgPack.Value
  | .null => .nil
  | .bool b => .bool b
  | .number (.int n) => if 0 ≤ n then .uint n.toNat else .sint n
  | .number (.float text) => .float (.finite text)
  | .string s => .str s
  | .array items => .array (writeItems items)
  | .object fields => .map (writeFields fields)

def writeItems : List Value → List MsgPack.Value
  | [] => []
  | v :: vs => v.write :: writeItems vs

def writeFields : List (String × Value) → List (MsgPack.Value × MsgPack.Value)
  | [] => []
  | (k, v) :: vs => (.str k, v.write) :: writeFields vs
end

def readFirstKey : MsgPack.Value → Except DecodeError String
  | .str s => .ok s
  | _ => .error (.invalidType "a string key")

mutual
/-- `Deserialize for Value`. -/
def Value.read : Nat → MsgPack.Value → Except DecodeError Value
  | _, .nil => .ok .null
  | _, .bool b => .ok (.bool b)
  | _, .uint n => .ok (.number (.int n))
  | _, .sint n => .ok (.number (.int n))
  | _, .float (.finite text) => .ok (.number (.float text))
  | _, .float (.infinite _) | _, .float .nan => .ok .null
  | _, .str s => .ok (.string s)
  | _, .bin _ | _, .ext _ _ => .error (.invalidType "any valid JSON value")
  | depth, .array items => do
    let inner ← enter depth
    return .array (← readItems inner items)
  | depth, .map entries => do
    let inner ← enter depth
    let fields ← readEntries true inner entries
    return .object (fields.foldl (fun m e => OrderedScan.insertEntry e.1 e.2 m) [])

def readItems : Nat → List MsgPack.Value → Except DecodeError (List Value)
  | _, [] => .ok []
  | depth, v :: vs => do
    let item ← Value.read depth v
    return item :: (← readItems depth vs)

def readEntries : Bool → Nat → List (MsgPack.Value × MsgPack.Value) →
    Except DecodeError (List (String × Value))
  | _, _, [] => .ok []
  | first, depth, (key, v) :: entries => do
    let name ← if first then readFirstKey key else readString key
    let item ← Value.read depth v
    return (name, item) :: (← readEntries false depth entries)
end

mutual
theorem Value.read_write : ∀ (v : Value) {depth : Nat}, v.Ordered → v.write.depth < depth →
    Value.read depth v.write = .ok v
  | .null, _, _, _ | .bool _, _, _, _ | .number (.float _), _, _, _ | .string _, _, _, _ => rfl
  | .number (.int n), _, _, _ => by
    by_cases hn : 0 ≤ n
    · simp only [Value.write, if_pos hn, Value.read, Int.toNat_of_nonneg hn]
    · simp only [Value.write, if_neg hn, Value.read]
  | .array items, depth, hordered, hdepth => by
    match depth, hdepth with
    | 0, hdepth => cases hdepth
    | 1, hdepth => simp [Value.write, MsgPack.Value.depth] at hdepth
    | depth + 2, hdepth =>
      have hitems : MsgPack.depthItems (writeItems items) < depth + 1 := by
        simpa [Value.write, MsgPack.Value.depth] using hdepth
      simp only [Value.write, Value.read, enter, bind, Except.bind,
        readItems_writeItems items hordered hitems]
      rfl
  | .object fields, depth, hordered, hdepth => by
    match depth, hdepth with
    | 0, hdepth => cases hdepth
    | 1, hdepth => simp [Value.write, MsgPack.Value.depth] at hdepth
    | depth + 2, hdepth =>
      have hfields : MsgPack.depthEntries (writeFields fields) < depth + 1 := by
        simpa [Value.write, MsgPack.Value.depth] using hdepth
      simp only [Value.write, Value.read, enter, bind, Except.bind,
        readEntries_writeFields fields true hordered.2 hfields]
      rw [OrderedScan.foldl_insertEntry (by simpa using hordered.1)]
      rfl

theorem readItems_writeItems : ∀ (items : List Value) {depth : Nat}, orderedItems items →
    MsgPack.depthItems (writeItems items) < depth →
    readItems depth (writeItems items) = .ok items
  | [], _, _, _ => rfl
  | v :: vs, depth, hordered, hdepth => by
    rw [writeItems, MsgPack.depthItems, Nat.max_lt] at hdepth
    simp only [writeItems, readItems, bind, Except.bind, Value.read_write v hordered.1 hdepth.1,
      readItems_writeItems vs hordered.2 hdepth.2]
    rfl

theorem readEntries_writeFields : ∀ (fields : List (String × Value)) (first : Bool) {depth : Nat},
    orderedFields fields → MsgPack.depthEntries (writeFields fields) < depth →
    readEntries first depth (writeFields fields) = .ok fields
  | [], _, _, _, _ => rfl
  | (k, v) :: vs, first, depth, hordered, hdepth => by
    rw [writeFields, MsgPack.depthEntries, Nat.max_lt, Nat.max_lt] at hdepth
    simp only [writeFields, readEntries, bind, Except.bind, readFirstKey, readString, ite_self,
      Value.read_write v hordered.1 hdepth.1.2,
      readEntries_writeFields vs false hordered.2 hdepth.2]
    rfl
end

end EntitySync.Json
