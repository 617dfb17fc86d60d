import Mathlib.Data.List.Basic

/-!
# JSON values

`serde_json::Value` as the server uses it: rows arrive as JSON objects, resolved parameters are
JSON strings, and both are compared and rendered through `PartialEq` and `Display`. An object is
the list of its entries in key order, which is how `serde_json`'s default map stores them.
-/

namespace EntitySync.Json

/-- `serde_json::Number`. A float stands here as the decimal text that `Display` prints for it,
which determines it. -/
inductive Number where
  | int (n : Int)
  | float (text : String)
deriving DecidableEq, Repr

/-- `Display for Number`. -/
def Number.toText : Number → String
  | .int n => toString n
  | .float text => text

/-- `PartialEq for Number`: the two float zeros are equal, an integer never equals a float. -/
def Number.eq : Number → Number → Bool
  | .int m, .int n => m == n
  | .float s, .float t =>
    s == t || (s == "0.0" || s == "-0.0") && (t == "0.0" || t == "-0.0")
  | _, _ => false

/-- `serde_json::Value`. -/
inductive Value where
  | null
  | bool (b : Bool)
  | number (n : Number)
  | string (s : String)
  | array (items : List Value)
  | object (fields : List (String × Value))
deriving Repr

mutual
def Value.decEq : (a b : Value) → Decidable (a = b)
  | .null, .null => isTrue rfl
  | .bool a, .bool b => decidable_of_iff (a = b) (by simp)
  | .number a, .number b => decidable_of_iff (a = b) (by simp)
  | .string a, .string b => decidable_of_iff (a = b) (by simp)
  | .array a, .array b => @decidable_of_iff _ (a = b) (by simp) (decEqItems a b)
  | .object a, .object b => @decidable_of_iff _ (a = b) (by simp) (decEqFields a b)
  | .null, .bool _ | .null, .number _ | .null, .string _ | .null, .array _ | .null, .object _
  | .bool _, .null | .bool _, .number _ | .bool _, .string _ | .bool _, .array _
  | .bool _, .object _ | .number _, .null | .number _, .bool _ | .number _, .string _
  | .number _, .array _ | .number _, .object _ | .string _, .null | .string _, .bool _
  | .string _, .number _ | .string _, .array _ | .string _, .object _ | .array _, .null
  | .array _, .bool _ | .array _, .number _ | .array _, .string _ | .array _, .object _
  | .object _, .null | .object _, .bool _ | .object _, .number _ | .object _, .string _
  | .object _, .array _ => isFalse (by simp)

def decEqItems : (a b : List Value) → Decidable (a = b)
  | [], [] => isTrue rfl
  | [], _ :: _ => isFalse (by simp)
  | _ :: _, [] => isFalse (by simp)
  | v :: vs, w :: ws =>
    @decidable_of_iff _ (v = w ∧ vs = ws) (by simp)
      (@instDecidableAnd _ _ (v.decEq w) (decEqItems vs ws))

def decEqFields : (a b : List (String × Value)) → Decidable (a = b)
  | [], [] => isTrue rfl
  | [], _ :: _ => isFalse (by simp)
  | _ :: _, [] => isFalse (by simp)
  | (k, v) :: vs, (l, w) :: ws =>
    @decidable_of_iff _ (k = l ∧ v = w ∧ vs = ws) (by simp [and_assoc])
      (@instDecidableAnd _ _ _ (@instDecidableAnd _ _ (v.decEq w) (decEqFields vs ws)))
end

instance : DecidableEq Value := Value.decEq

mutual
/-- `PartialEq for Value`. -/
def Value.eq : Value → Value → Bool
  | .null, .null => true
  | .bool a, .bool b => a == b
  | .number a, .number b => a.eq b
  | .string a, .string b => a == b
  | .array a, .array b => eqItems a b
  | .object a, .object b => eqFields a b
  | _, _ => false

def eqItems : List Value → List Value → Bool
  | [], [] => true
  | v :: vs, w :: ws => v.eq w && eqItems vs ws
  | _, _ => false

def eqFields : List (String × Value) → List (String × Value) → Bool
  | [], [] => true
  | (k, v) :: vs, (l, w) :: ws => k == l && v.eq w && eqFields vs ws
  | _, _ => false
end

/-- How `serde_json` writes one character of a string. -/
def escapeChar (c : Char) : List Char :=
  if c = '\x22' then ['\x5c', '\x22']
  else if c = '\x5c' then ['\x5c', '\x5c']
  else if c = '\x08' then ['\x5c', 'b']
  else if c = '\x0c' then ['\x5c', 'f']
  else if c = '\x0a' then ['\x5c', 'n']
  else if c = '\x0d' then ['\x5c', 'r']
  else if c = '\x09' then ['\x5c', 't']
  else if c.toNat < 0x20 then
    ['\x5c', 'u', '0', '0', (c.toNat / 16).digitChar, (c.toNat % 16).digitChar]
  else [c]

def quote (s : String) : String :=
  String.ofList ('\x22' :: (s.toList.flatMap escapeChar ++ ['\x22']))

mutual
/-- `Display for Value`: compact JSON. -/
def Value.toText : Value → String
  | .null => "null"
  | .bool b => if b then "true" else "false"
  | .number n => n.toText
  | .string s => quote s
  | .array items => "[" ++ ",".intercalate (itemTexts items) ++ "]"
  | .object fields => "\x7b" ++ ",".intercalate (fieldTexts fields) ++ "\x7d"

def itemTexts : List Value → List String
  | [] => []
  | v :: vs => v.toText :: itemTexts vs

def fieldTexts : List (String × Value) → List String
  | [] => []
  | (k, v) :: vs => (quote k ++ ":" ++ v.toText) :: fieldTexts vs
end

example : (Value.object [("id", .number (.int 7)), ("note", .string "a\nb")]).toText =
    "\x7b\"id\":7,\"note\":\"a\\nb\"\x7d" := by decide

def Value.asObject : Value → Option (List (String × Value))
  | .object fields => some fields
  | _ => none

def Value.get (v : Value) (key : String) : Option Value :=
  v.asObject.bind (List.lookup key)

/-- The text of a string or number, which is how scalars of different JSON types are compared
and how an id column becomes a cursor. -/
def Value.scalarText : Value → Option String
  | .string s => some s
  | .number n => some n.toText
  | _ => none

theorem escapeChar_of_plain {c : Char} (hquote : c ≠ '\x22') (hslash : c ≠ '\x5c')
    (hcontrol : 0x20 ≤ c.toNat) : escapeChar c = [c] := by
  have hne (d : Char) (hd : d.toNat < 0x20) : c ≠ d := by
    rintro rfl
    omega
  simp only [escapeChar, if_neg hquote, if_neg hslash, if_neg (hne '\x08' (by decide)),
    if_neg (hne '\x0c' (by decide)), if_neg (hne '\x0a' (by decide)),
    if_neg (hne '\x0d' (by decide)), if_neg (hne '\x09' (by decide)),
    if_neg (Nat.not_lt.mpr hcontrol)]

theorem toList_quote_of_plain {s : String}
    (h : ∀ c ∈ s.toList, c ≠ '\x22' ∧ c ≠ '\x5c' ∧ 0x20 ≤ c.toNat) :
    (quote s).toList = '\x22' :: (s.toList ++ ['\x22']) := by
  have hflat : s.toList.flatMap escapeChar = s.toList := by
    have hmap : s.toList.flatMap escapeChar = s.toList.flatMap fun c => [c] := by
      apply List.flatMap_congr
      intro c hc
      exact escapeChar_of_plain (h c hc).1 (h c hc).2.1 (h c hc).2.2
    simpa using hmap
  simp [quote, hflat]

end EntitySync.Json
