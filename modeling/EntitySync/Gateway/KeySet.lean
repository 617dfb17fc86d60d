import EntitySync.Gateway.Auth

/-!
# Key sets with foreign or broken entries

A JWKS response is deserialized as a whole and its keys are stored in one loop, so one entry that
is no RSA key fails the call for every `kid`. An entry without a `kid` is filed under the empty
one, and of several entries filed under one `kid` the last is kept.
-/

namespace EntitySync.Gateway

open Json (Value)

section
variable (error : String)

/-- A known field of an object; serde's derive refuses one that comes twice. -/
def readField (fields : List (String × Value)) (name : String) : Except String (Option Value) :=
  match fields.filter (·.1 = name) with
  | [] => .ok none
  | [field] => .ok (some field.2)
  | _ => .error error

/-- An `Option<String>` field: a missing field and `null` are `None`. -/
def readKid : Option Value → Except String (Option String)
  | none | some .null => .ok none
  | some (.string kid) => .ok (some kid)
  | some _ => .error error

/-- A `String` field. That it is required, `Jwk.parse` says. -/
def readComponent : Option Value → Except String (Option String)
  | none => .ok none
  | some (.string text) => .ok (some text)
  | some _ => .error error

def JwkJson.read (kid n e : Option Value) : Except String JwkJson := do
  let kid ← readKid error kid
  let n ← readComponent error n
  let e ← readComponent error e
  return ⟨kid, n, e⟩

/-- An entry of the response; a struct may also come as the array of its fields. -/
def JwkJson.ofValue : Value → Except String JwkJson
  | .object fields => do
    let kid ← readField error fields "kid"
    let n ← readField error fields "n"
    let e ← readField error fields "e"
    read error kid n e
  | .array [kid, n, e] => read error (some kid) (some n) (some e)
  | _ => .error error

def keySetEntries : Value → Except String (List Value)
  | .object fields => do
    match ← readField error fields "keys" with
    | some (.array items) => return items
    | _ => .error error
  | .array [.array items] => .ok items
  | _ => .error error

/-- The response with this body, as `get_or_fetch_key` deserializes it. Any failure comes with the
HTTP client's text `error` for it. -/
def JwksReply.ofBody (body : Value) : JwksReply :=
  match keySetEntries error body with
  | .error error => .malformed error
  | .ok items =>
    match items.mapM (JwkJson.ofValue error) with
    | .error error => .malformed error
    | .ok entries => .keys error entries

def Jwk.ofValue (item : Value) : Except String Jwk := JwkJson.ofValue error item >>= Jwk.parse error

end

theorem lookup_eq_filter (fields : List (String × Value)) (name : String) :
    fields.lookup name = (fields.filter (·.1 = name)).head?.map Prod.snd := by
  induction fields with
  | nil => rfl
  | cons field fields ih =>
    obtain ⟨key, value⟩ := field
    by_cases hname : key = name
    · simp [hname]
    · have hne : (name == key) = false := beq_eq_false_iff_ne.mpr (Ne.symm hname)
      rw [List.lookup_cons, hne, ih, List.filter_cons_of_neg (by simpa using hname)]

theorem readField_eq_ok {error name : String} {fields : List (String × Value)}
    {value : Option Value} (h : readField error fields name = .ok value) :
    fields.lookup name = value := by
  rw [readField] at h
  rw [lookup_eq_filter]
  split at h
  next hnone =>
    cases h
    rw [hnone]
    rfl
  next field hone =>
    cases h
    rw [hone]
    rfl
  next => cases h

namespace JwtValidator

section
variable {Key : Type} (rsa : String → String → Except String Key) (error : String)

/-- The entry is an object with the `kid`, and its `n` and `e` decode to the key. -/
def UsableRsa (item : Value) (kid : String) (key : Key) : Prop :=
  item.get "kid" = some (.string kid) ∧ ∃ n e, item.get "n" = some (.string n) ∧
    item.get "e" = some (.string e) ∧ rsa n e = .ok key

def ReturnsKey (s : JwtValidator Key) (kid : String) (body : Value) (key : Key) : Prop :=
  ∃ t, s.step rsa (.reply (.ofBody error body)) = some t ∧
    t.returned = s.returned ++ [(kid, .ok key, s.now)]

def Accepted (item : Value) : Prop :=
  ∃ jwk, Jwk.ofValue error item = .ok jwk ∧ (rsa jwk.n jwk.e).isOk

def LastUnder (jwks : List Jwk) (kid : String) (key : Key) : Prop :=
  ∃ front last back, jwks = front ++ last :: back ∧ last.kid.getD "" = kid ∧
    rsa last.n last.e = .ok key ∧ ∀ other ∈ back, other.kid.getD "" ≠ kid

variable {rsa} {error}

theorem storeKeys_append {now : Nat} {front : List Jwk}
    (hok : ∀ jwk ∈ front, (rsa jwk.n jwk.e).isOk) (back : List Jwk)
    (cache : HashMap String (Key × Nat)) :
    storeKeys rsa now (front ++ back) cache =
      storeKeys rsa now back (storeKeys rsa now front cache).1 := by
  induction front generalizing cache with
  | nil => rfl
  | cons jwk front ih =>
    rw [List.forall_mem_cons] at hok
    rw [List.cons_append, storeKeys, storeKeys]
    cases hkey : rsa jwk.n jwk.e with
    | error e => simp [hkey] at hok
    | ok key => exact ih hok.2 _

theorem LastUnder.lookup {now : Nat} {jwks : List Jwk} (hok : ∀ jwk ∈ jwks, (rsa jwk.n jwk.e).isOk)
    {kid : String} {key : Key} (h : LastUnder rsa jwks kid key)
    (cache : HashMap String (Key × Nat)) :
    (storeKeys rsa now jwks cache).1.lookup kid = some (key, now) := by
  obtain ⟨front, last, back, rfl, hkid, hkey, hback⟩ := h
  have hfront : ∀ jwk ∈ front, (rsa jwk.n jwk.e).isOk :=
    fun jwk hjwk => hok jwk (List.mem_append_left _ hjwk)
  rw [storeKeys_append hfront, storeKeys, hkey]
  simp only
  rw [lookup_storeKeys_of_unlisted hback, hkid, AList.lookup_insert]

theorem exists_lastUnder {jwks : List Jwk} (hok : ∀ jwk ∈ jwks, (rsa jwk.n jwk.e).isOk)
    {kid : String} (h : ∃ jwk ∈ jwks, jwk.kid.getD "" = kid) :
    ∃ key, LastUnder rsa jwks kid key := by
  induction jwks with
  | nil => simp at h
  | cons jwk jwks ih =>
    rw [List.forall_mem_cons] at hok
    by_cases hrest : ∃ other ∈ jwks, other.kid.getD "" = kid
    · obtain ⟨key, front, last, back, rfl, hlast⟩ := ih hok.2 hrest
      exact ⟨key, jwk :: front, last, back, rfl, hlast⟩
    · have hkid : jwk.kid.getD "" = kid := by simpa [hrest] using h
      cases hkey : rsa jwk.n jwk.e with
      | error e => simp [hkey] at hok
      | ok key => exact ⟨key, [], jwk, jwks, rfl, hkid, hkey, by simpa using hrest⟩

/-- With all components decoding and the `kid` listed, the loop leaves the last key under it. -/
theorem lookup_storeKeys_iff {now : Nat} {jwks : List Jwk}
    (hok : ∀ jwk ∈ jwks, (rsa jwk.n jwk.e).isOk) {kid : String}
    (hlisted : ∃ jwk ∈ jwks, jwk.kid.getD "" = kid) (cache : HashMap String (Key × Nat))
    (key : Key) :
    (∃ time, (storeKeys rsa now jwks cache).1.lookup kid = some (key, time)) ↔
      LastUnder rsa jwks kid key := by
  constructor
  · intro h
    obtain ⟨time, hlookup⟩ := h
    obtain ⟨last, hlast⟩ := exists_lastUnder hok hlisted
    rw [hlast.lookup hok cache] at hlookup
    cases hlookup
    exact hlast
  · intro h
    exact ⟨now, h.lookup hok cache⟩

theorem refresh_ok_iff {s : JwtValidator Key} {kid : String} {entries : List JwkJson} {key : Key} :
    (s.refresh rsa kid (.keys error entries)).returned = s.returned ++ [(kid, .ok key, s.now)] ↔
      ∃ jwks, entries.mapM (Jwk.parse error) = .ok jwks ∧ (∀ jwk ∈ jwks, (rsa jwk.n jwk.e).isOk) ∧
        ∃ time, (storeKeys rsa s.now jwks s.jwksCache).1.lookup kid = some (key, time) := by
  rw [refresh]
  cases hparse : entries.mapM (Jwk.parse error) with
  | error => simp [finish]
  | ok jwks =>
    simp only [Except.ok.injEq, exists_eq_left']
    rw [← @storeKeys_ok_iff _ rsa s.now jwks s.jwksCache]
    cases hstored : (storeKeys rsa s.now jwks s.jwksCache).2 with
    | error e => simp [finish]
    | ok =>
      cases hlookup : (storeKeys rsa s.now jwks s.jwksCache).1.lookup kid with
      | none => simp [finish]
      | some entry =>
        obtain ⟨cachedKey, time⟩ := entry
        simp [finish]

theorem UsableRsa.kid_ofValue {item : Value} {kid : String} {key : Key}
    (h : UsableRsa rsa item kid key) {jwk : Jwk} (hread : Jwk.ofValue error item = .ok jwk) :
    jwk.kid = some kid := by
  obtain ⟨hkid, _⟩ := h
  cases item with
  | object fields =>
    change fields.lookup "kid" = _ at hkid
    obtain ⟨entry, hentry, hparse⟩ := Checks.bind_eq_ok.mp hread
    obtain ⟨value, hvalue, hentry⟩ := Checks.bind_eq_ok.mp hentry
    obtain ⟨_, _, hentry⟩ := Checks.bind_eq_ok.mp hentry
    obtain ⟨_, _, hentry⟩ := Checks.bind_eq_ok.mp hentry
    obtain ⟨read, hown, hentry⟩ := Checks.bind_eq_ok.mp hentry
    obtain ⟨_, _, hentry⟩ := Checks.bind_eq_ok.mp hentry
    obtain ⟨_, _, hentry⟩ := Checks.bind_eq_ok.mp hentry
    cases hentry
    rw [← readField_eq_ok hvalue, hkid] at hown
    cases hown
    exact (parse_eq_ok.mp hparse).1.symm
  | null | bool | number | string | array => cases hkid

theorem accepted_iff {items : List Value} {jwks : List Jwk}
    (h : items.mapM (Jwk.ofValue error) = .ok jwks) :
    (∀ item ∈ items, Accepted rsa error item) ↔ ∀ jwk ∈ jwks, (rsa jwk.n jwk.e).isOk := by
  have hmem := Checks.mem_of_mapM_eq_ok h
  constructor
  · intro hall jwk hjwk
    obtain ⟨item, hitem, hread⟩ := hmem.1 jwk hjwk
    obtain ⟨other, hother, hok⟩ := hall item hitem
    rw [hread] at hother
    cases hother
    exact hok
  · intro hall item hitem
    obtain ⟨jwk, hjwk, hread⟩ := hmem.2 item hitem
    exact ⟨jwk, hread, hall jwk hjwk⟩

theorem refresh_ofBody_ok_iff {s : JwtValidator Key} {kid : String} {body : Value}
    {items : List Value} (hitems : keySetEntries error body = .ok items) {key : Key} :
    (s.refresh rsa kid (.ofBody error body)).returned = s.returned ++ [(kid, .ok key, s.now)] ↔
      ∃ jwks, items.mapM (Jwk.ofValue error) = .ok jwks ∧ (∀ jwk ∈ jwks, (rsa jwk.n jwk.e).isOk) ∧
        ∃ time, (storeKeys rsa s.now jwks s.jwksCache).1.lookup kid = some (key, time) := by
  have hsplit (jwks : List Jwk) : items.mapM (Jwk.ofValue error) = .ok jwks ↔
      ∃ entries, items.mapM (JwkJson.ofValue error) = .ok entries ∧
        entries.mapM (Jwk.parse error) = .ok jwks :=
    Checks.mapM_mapM_eq_ok
  rw [JwksReply.ofBody, hitems]
  simp only [hsplit]
  cases hread : items.mapM (JwkJson.ofValue error) with
  | error => simp [refresh, finish]
  | ok entries =>
    rw [refresh_ok_iff]
    simp

/-- For a response with a usable RSA entry for `kid`, the call returns the entry's key if and only
if every entry of the response deserializes with components that decode, and the last entry filed
under `kid` has the same key. -/
theorem returnsKey_iff (s : JwtValidator Key) {kid error : String} (hmiss : s.refreshing = some kid)
    (body : Value) {items : List Value} (hitems : keySetEntries error body = .ok items)
    {item : Value} (hitem : item ∈ items) {key : Key} (husable : UsableRsa rsa item kid key) :
    s.ReturnsKey rsa error kid body key ↔ (∀ other ∈ items, Accepted rsa error other) ∧
      ∃ jwks, items.mapM (Jwk.ofValue error) = .ok jwks ∧ LastUnder rsa jwks kid key := by
  have hstep : s.ReturnsKey rsa error kid body key ↔
      ({ s with refreshing := none }.refresh rsa kid (.ofBody error body)).returned =
        s.returned ++ [(kid, .ok key, s.now)] := by
    simp [ReturnsKey, step, hmiss]
  have hlisted {jwks : List Jwk} (hread : items.mapM (Jwk.ofValue error) = .ok jwks) :
      ∃ jwk ∈ jwks, jwk.kid.getD "" = kid := by
    obtain ⟨jwk, hjwk, hvalue⟩ := (Checks.mem_of_mapM_eq_ok hread).2 item hitem
    exact ⟨jwk, hjwk, by rw [husable.kid_ofValue hvalue, Option.getD_some]⟩
  rw [hstep, refresh_ofBody_ok_iff hitems]
  constructor
  · intro h
    obtain ⟨jwks, hread, hok, hlookup⟩ := h
    exact ⟨(accepted_iff hread).mpr hok, jwks, hread,
      (lookup_storeKeys_iff hok (hlisted hread) _ key).mp hlookup⟩
  · intro h
    obtain ⟨hall, jwks, hread, hlast⟩ := h
    have hok := (accepted_iff hread).mp hall
    exact ⟨jwks, hread, hok, (lookup_storeKeys_iff hok (hlisted hread) _ key).mpr hlast⟩

end

private def anyRsa (n e : String) : Except String String := .ok (n ++ "." ++ e)

private def missed : JwtValidator String :=
  { jwksCache := ∅, now := 0, waiting := [], refreshing := some "rsa-1", fetched := [],
    returned := [] }

private def rsaEntry (kid n : String) : Value :=
  .object [("e", .string "AQAB"), ("kid", .string kid), ("kty", .string "RSA"), ("n", .string n)]

private def ecEntry : Value :=
  .object [("crv", .string "P-256"), ("kid", .string "ec-1"), ("kty", .string "EC"),
    ("x", .string "f83OJ3D2"), ("y", .string "x_FEzRu9")]

theorem returnsKey_among_rsa :
    missed.ReturnsKey anyRsa "" "rsa-1"
      (.object [("keys", .array [rsaEntry "rsa-1" "0vx7", rsaEntry "rsa-2" "sXch"])])
      "0vx7.AQAB" := by
  refine (returnsKey_iff missed rfl _ rfl List.mem_cons_self
    ⟨rfl, "0vx7", "AQAB", rfl, rfl, rfl⟩).mpr ⟨?_, _, rfl, ?_⟩
  · simp only [List.forall_mem_cons, List.not_mem_nil]
    exact ⟨⟨_, rfl, rfl⟩, ⟨_, rfl, rfl⟩, nofun⟩
  · exact ⟨[], _, _, rfl, rfl, rfl, by decide⟩

/-- One elliptic curve key in the set, and the call for the RSA key fails, with whatever text the
HTTP client has for a response that does not deserialize. -/
theorem foreign_entry_locks_out :
    let body := Value.object [("keys", .array [rsaEntry "rsa-1" "0vx7", ecEntry])]
    UsableRsa anyRsa (rsaEntry "rsa-1" "0vx7") "rsa-1" "0vx7.AQAB" ∧ ∀ error,
      ¬missed.ReturnsKey anyRsa error "rsa-1" body "0vx7.AQAB" ∧
      (missed.step anyRsa (.reply (.ofBody error body))).map returned =
        some [("rsa-1", .error (.authError ("JWKS response parse failed: " ++ error)), 0)] := by
  refine ⟨⟨rfl, "0vx7", "AQAB", rfl, rfl, rfl⟩, fun error => ?_⟩
  have hreturned : (missed.step anyRsa (.reply (.ofBody error (.object
      [("keys", .array [rsaEntry "rsa-1" "0vx7", ecEntry])])))).map returned =
        some [("rsa-1", .error (.authError ("JWKS response parse failed: " ++ error)), 0)] := rfl
  refine ⟨?_, hreturned⟩
  rintro ⟨t, hstep, hkey⟩
  rw [hstep, Option.map_some, hkey] at hreturned
  cases hreturned

end JwtValidator

end EntitySync.Gateway
