import EntitySync.Library.Checks

/-!
# MessagePack values and derived readers

The values of the format, and how a derived `Deserialize` reads a struct or an enum from one of
them. A reader gets the number of levels it may still descend. A struct is written as a map from
its field names; reading it skips the keys that name no field, so a written struct can be
extended.
-/

namespace MsgPack

/-- An `f64`; a finite one stands as the decimal text that determines it. -/
inductive Float64 where
  | finite (text : String)
  | infinite (negative : Bool)
  | nan
deriving DecidableEq

inductive Value where
  | nil
  | bool (b : Bool)
  | uint (n : Nat)
  | sint (n : Int)
  | float (x : Float64)
  | str (s : String)
  | bin (bytes : List UInt8)
  | array (items : List Value)
  | map (entries : List (Value × Value))
  | ext (kind : Int) (bytes : List UInt8)

inductive DecodeError where
  | depthLimitExceeded
  | lengthMismatch (length : Nat)
  | invalidType (expected : String)
  | invalidValue (expected : String)
  | missingField (name : String)
  | duplicateField (name : String)
  | unknownVariant

mutual
def Value.depth : Value → Nat
  | .array items => depthItems items + 1
  | .map entries => depthEntries entries + 1
  | .ext _ _ => 1
  | .nil | .bool _ | .uint _ | .sint _ | .float _ | .str _ | .bin _ => 0

def depthItems : List Value → Nat
  | [] => 0
  | v :: vs => max v.depth (depthItems vs)

def depthEntries : List (Value × Value) → Nat
  | [] => 0
  | (k, v) :: es => max (max k.depth v.depth) (depthEntries es)
end

def enter : Nat → Except DecodeError Nat
  | 0 | 1 => .error .depthLimitExceeded
  | d + 2 => .ok (d + 1)

def skip (depth : Nat) (v : Value) : Except DecodeError Unit :=
  if v.depth < depth then .ok () else .error .depthLimitExceeded

def readUInt (bound : Nat) : Value → Except DecodeError Nat
  | .uint n => if n < bound then .ok n else .error (.invalidValue "an unsigned integer")
  | .sint n =>
    if 0 ≤ n ∧ n < bound then .ok n.toNat else .error (.invalidValue "an unsigned integer")
  | _ => .error (.invalidType "an unsigned integer")

def readString : Value → Except DecodeError String
  | .str s => .ok s
  | .bin bytes =>
    match String.fromUTF8? ⟨bytes.toArray⟩ with
    | some s => .ok s
    | none => .error (.invalidValue "a string")
  | _ => .error (.invalidType "a string")

section
variable {α : Type}

/-- A sequence; binary data is the sequence of its bytes. -/
def readSeq (read : Nat → Value → Except DecodeError α) (depth : Nat) :
    Value → Except DecodeError (List α)
  | .array items => do
    let inner ← enter depth
    items.mapM (read inner)
  | .bin bytes => (bytes.map fun b => Value.uint b.toNat).mapM (read depth)
  | _ => .error (.invalidType "a sequence")

end

/-- The one of `names` that a key stands for, by its text, its bytes or its position; `none` for
an unknown key. -/
def identify (names : List String) : Value → Except DecodeError (Option String)
  | .str s => .ok (names.find? (· = s))
  | .bin bytes => .ok (names.find? (·.toUTF8.toList = bytes))
  | .uint n => .ok names[n]?
  | _ => .error (.invalidType "an identifier")

structure Fields where
  found : List (String × Value)
  depth : Nat

/-- The known fields among the entries of a map, after those already found. -/
def collect (names : List String) (depth : Nat) :
    List (Value × Value) → List (String × Value) → Except DecodeError (List (String × Value))
  | [], found => .ok found
  | (key, v) :: entries, found => do
    match ← identify names key with
    | none =>
      skip depth v
      collect names depth entries found
    | some name =>
      if name ∈ found.map Prod.fst then .error (.duplicateField name)
      else collect names depth entries (found ++ [(name, v)])

/-- A struct: a map from its field names, or the array of its fields in order. -/
def readFields (names : List String) (depth : Nat) : Value → Except DecodeError Fields
  | .map entries => do
    let inner ← enter depth
    return ⟨← collect names inner entries [], inner⟩
  | .array items => do
    let inner ← enter depth
    if items.length = names.length then return ⟨names.zip items, inner⟩
    else .error (.lengthMismatch items.length)
  | _ => .error (.invalidType "a struct")

section
variable {α : Type}

def Fields.required (fields : Fields) (name : String)
    (read : Nat → Value → Except DecodeError α) : Except DecodeError α :=
  match fields.found.lookup name with
  | none => .error (.missingField name)
  | some v => read fields.depth v

def Fields.optional (fields : Fields) (name : String)
    (read : Nat → Value → Except DecodeError α) : Except DecodeError (Option α) :=
  match fields.found.lookup name with
  | none | some .nil => .ok none
  | some v => some <$> read fields.depth v

end

/-- The variant of an enum and its content: a map with the variant as its only key, or the
variant alone. -/
def readVariant (names : List String) : Value → Except DecodeError (String × Option Value)
  | .map [(key, content)] => do
    match ← identify names key with
    | some name => return (name, some content)
    | none => .error .unknownVariant
  | .map entries => .error (.lengthMismatch entries.length)
  | v => do
    match ← identify names v with
    | some name => return (name, none)
    | none => .error .unknownVariant

def writeStruct (fields : List (String × Value)) : Value :=
  .map (fields.map fun field => (.str field.1, field.2))

def writeVariant (name : String) (content : Value) : Value := .map [(.str name, content)]

/-- The key is an identifier, and it stands for none of the names. -/
def Unknown (names : List String) : Value → Prop
  | .str s => s ∉ names
  | .bin bytes => ∀ name ∈ names, name.toUTF8.toList ≠ bytes
  | .uint n => names.length ≤ n
  | _ => False

/-- The second list of entries has further pairs with unknown keys, at any positions. -/
inductive Extended (names : List String) (depth : Nat) :
    List (Value × Value) → List (Value × Value) → Prop
  | nil : Extended names depth [] []
  | keep {es es' : List (Value × Value)} (e : Value × Value) (h : Extended names depth es es') :
    Extended names depth (e :: es) (e :: es')
  | insert {es es' : List (Value × Value)} {key v : Value} (hkey : Unknown names key)
    (hdepth : v.depth < depth) (h : Extended names depth es es') :
    Extended names depth es ((key, v) :: es')

/-- The struct as it is written, with further pairs in its map; `depth` is where it is read. -/
def ExtendedStruct (names : List String) (depth : Nat) (fields : List (String × Value))
    (v : Value) : Prop :=
  ∃ entries, v = .map entries ∧
    Extended names (depth - 1) (fields.map fun field => (.str field.1, field.2)) entries

variable {names : List String} {depth : Nat}

@[simp] theorem ok_bind {α β : Type} (a : α) (f : α → Except DecodeError β) :
    (Except.ok a >>= f) = f a := rfl

@[simp] theorem pure_eq_ok {α : Type} (a : α) : (pure a : Except DecodeError α) = .ok a := rfl

theorem Extended.refl (es : List (Value × Value)) : Extended names depth es es := by
  induction es with
  | nil => exact .nil
  | cons e es ih => exact .keep e ih

theorem extendedStruct_writeStruct (fields : List (String × Value)) :
    ExtendedStruct names depth fields (writeStruct fields) :=
  ⟨_, rfl, .refl _⟩

theorem identify_of_unknown {key : Value} (h : Unknown names key) :
    identify names key = .ok none := by
  cases key with
  | str s =>
    rw [identify, Except.ok.injEq, List.find?_eq_none]
    intro name hname heq
    exact h (of_decide_eq_true heq ▸ hname)
  | bin bytes => simpa [identify, Unknown] using h
  | uint n => simpa [identify, Unknown] using h
  | nil | bool | sint | float | array | map | ext => exact h.elim

theorem identify_str {name : String} (h : name ∈ names) :
    identify names (.str name) = .ok (some name) := by
  rw [identify, Except.ok.injEq]
  have hfound : (names.find? (· = name)).isSome := by
    simpa using h
  obtain ⟨found, hfind⟩ := Option.isSome_iff_exists.mp hfound
  have heq := List.find?_some hfind
  simp only [decide_eq_true_eq] at heq
  rw [hfind, heq]

/-- Further pairs with unknown keys do not change what is found. -/
theorem collect_extended {fields found : List (String × Value)} {entries : List (Value × Value)}
    (h : Extended names depth (fields.map fun field => (.str field.1, field.2)) entries)
    (hnames : ∀ field ∈ fields, field.1 ∈ names)
    (hnodup : ((found ++ fields).map Prod.fst).Nodup) :
    collect names depth entries found = .ok (found ++ fields) := by
  generalize hes : fields.map (fun field => (Value.str field.1, field.2)) = es at h
  induction h generalizing fields found with
  | nil =>
    obtain rfl := List.map_eq_nil_iff.mp hes
    simp [collect]
  | @keep _ entries e h ih =>
    obtain ⟨field, rest, rfl, rfl, rfl⟩ := List.map_eq_cons_iff.mp hes
    have hfresh : field.1 ∉ found.map Prod.fst := by
      intro hmem
      rw [List.map_append, List.map_cons, List.nodup_append] at hnodup
      exact hnodup.2.2 _ hmem _ List.mem_cons_self rfl
    have hrest : collect names depth entries (found ++ [field]) = .ok (found ++ [field] ++ rest) :=
      ih (fun f hf => hnames f (List.mem_cons_of_mem _ hf)) (by simpa using hnodup) rfl
    rw [collect, identify_str (hnames field List.mem_cons_self)]
    simpa [hfresh] using hrest
  | insert hkey hdepth h ih =>
    rw [collect, identify_of_unknown hkey]
    simpa [skip, hdepth] using ih hnames hnodup hes

/-- What is read from an extended struct are the fields it was written from. -/
theorem readFields_extended {fields : List (String × Value)} {v : Value}
    (h : ExtendedStruct names (depth + 2) fields v) (hnames : fields.map Prod.fst = names)
    (hnodup : names.Nodup) :
    readFields names (depth + 2) v = .ok ⟨fields, depth + 1⟩ := by
  obtain ⟨entries, rfl, hentries⟩ := h
  have hcollect : collect names (depth + 2 - 1) entries [] = .ok ([] ++ fields) :=
    collect_extended hentries (fun field hfield => hnames ▸ List.mem_map_of_mem hfield)
      (by simpa [hnames] using hnodup)
  rw [show depth + 2 - 1 = depth + 1 from rfl] at hcollect
  simp [readFields, enter, hcollect]

theorem readVariant_writeVariant {name : String} (h : name ∈ names) (content : Value) :
    readVariant names (writeVariant name content) = .ok (name, some content) := by
  rw [writeVariant, readVariant, identify_str h]
  rfl

section
variable {α : Type}

theorem readSeq_array {read : Nat → Value → Except DecodeError α} {items : List Value}
    {xs : List α} (h : List.Forall₂ (fun v x => read (depth + 1) v = .ok x) items xs) :
    readSeq read (depth + 2) (.array items) = .ok xs :=
  Checks.mapM_eq_ok_of_forall₂ h

theorem readSeq_map {read : Nat → Value → Except DecodeError α} {write : α → Value}
    {xs : List α} (h : ∀ x ∈ xs, read (depth + 1) (write x) = .ok x) :
    readSeq read (depth + 2) (.array (xs.map write)) = .ok xs := by
  apply readSeq_array
  rw [List.forall₂_map_left_iff, List.forall₂_same]
  exact h

end

end MsgPack
