import EntitySync.Core.Types
import EntitySync.Library.Checks
import EntitySync.Library.StepSystem

/-!
# Signing keys

The JWKS cache of `JwtValidator` and the calls of `get_or_fetch_key` that share it. A call reads
the cache, waits for the refresh lock, reads the cache again and fetches the key set; only the
holder of the lock writes the cache. Times are nanoseconds of the monotonic clock. How a key is
built from its RSA components is the parameter `rsa`.
-/

namespace EntitySync.Gateway

open StepSystem

def jwksCacheTtl : Nat := 300000000000

structure JwkJson where
  kid : Option String
  n : Option String
  e : Option String

structure Jwk where
  kid : Option String
  n : String
  e : String

/-- The fields `n` and `e` are required. The text of the error is that of the HTTP client. -/
def Jwk.parse (error : String) (entry : JwkJson) : Except String Jwk :=
  match entry.n, entry.e with
  | some n, some e => .ok ⟨entry.kid, n, e⟩
  | _, _ => .error error

/-- How the request for the key set ends. -/
inductive JwksReply where
  | unreachable (error : String)
  | malformed (error : String)
  /-- The body lists these entries; `error` is the text of the failure if they are no keys. -/
  | keys (error : String) (entries : List JwkJson)

structure JwtValidator (Key : Type) where
  jwksCache : HashMap String (Key × Nat)
  now : Nat
  /-- The calls that wait for the refresh lock. -/
  waiting : List String
  /-- The call that holds it. -/
  refreshing : Option String
  /-- The key sets fetched so far and when. -/
  fetched : List (Nat × List JwkJson)
  /-- What the calls returned and when. -/
  returned : List (String × Except SyncError Key × Nat)

inductive ValidatorAction where
  | tick (nanos : Nat)
  | call (kid : String)
  | acquire (i : Nat)
  | reply (reply : JwksReply)

namespace JwtValidator

def new {Key : Type} : JwtValidator Key := ⟨∅, 0, [], none, [], []⟩

section
variable {Key : Type} (rsa : String → String → Except String Key)

def cached (s : JwtValidator Key) (kid : String) : Option Key :=
  match s.jwksCache.lookup kid with
  | none => none
  | some entry => if s.now - entry.2 < jwksCacheTtl then some entry.1 else none

def finish (s : JwtValidator Key) (kid : String) (result : Except SyncError Key) :
    JwtValidator Key :=
  { s with returned := s.returned ++ [(kid, result, s.now)] }

/-- The loop over the fetched keys; keys stored before an unusable one stay in the cache. -/
def storeKeys (now : Nat) :
    List Jwk → HashMap String (Key × Nat) → HashMap String (Key × Nat) × Except SyncError Unit
  | [], cache => (cache, .ok ())
  | jwk :: jwks, cache =>
    match rsa jwk.n jwk.e with
    | .error e => (cache, .error (.authError ("invalid JWK RSA components: " ++ e)))
    | .ok key => storeKeys now jwks (cache.insert (jwk.kid.getD "") (key, now))

/-- The rest of a call once its request is answered. The last lookup takes whatever is cached. -/
def refresh (s : JwtValidator Key) (kid : String) : JwksReply → JwtValidator Key
  | .unreachable error => s.finish kid (.error (.authError ("JWKS fetch failed: " ++ error)))
  | .malformed error =>
    s.finish kid (.error (.authError ("JWKS response parse failed: " ++ error)))
  | .keys error entries =>
    let received := { s with fetched := s.fetched ++ [(s.now, entries)] }
    match entries.mapM (Jwk.parse error) with
    | .error error =>
      received.finish kid (.error (.authError ("JWKS response parse failed: " ++ error)))
    | .ok jwks =>
      let stored := storeKeys rsa s.now jwks s.jwksCache
      let updated := { received with jwksCache := stored.1 }
      match stored.2, stored.1.lookup kid with
      | .error e, _ => updated.finish kid (.error e)
      | .ok (), none =>
        updated.finish kid (.error (.authError ("no JWK found for kid '" ++ kid ++ "'")))
      | .ok (), some entry => updated.finish kid (.ok entry.1)

def step (s : JwtValidator Key) : ValidatorAction → Option (JwtValidator Key)
  | .tick nanos => some { s with now := s.now + nanos }
  | .call kid =>
    match s.cached kid with
    | some key => some (s.finish kid (.ok key))
    | none => some { s with waiting := s.waiting ++ [kid] }
  | .acquire i =>
    match s.refreshing, s.waiting[i]? with
    | none, some kid =>
      let woken := { s with waiting := s.waiting.eraseIdx i }
      match s.cached kid with
      | some key => some (woken.finish kid (.ok key))
      | none => some { woken with refreshing := some kid }
    | _, _ => none
  | .reply reply =>
    match s.refreshing with
    | none => none
    | some kid => some ({ s with refreshing := none }.refresh rsa kid reply)

/-- The key set holds the key under the kid; an entry without a kid is filed under the empty one. -/
def Contains (entries : List JwkJson) (kid : String) (key : Key) : Prop :=
  ∃ entry ∈ entries, entry.kid.getD "" = kid ∧ ∃ n ∈ entry.n, ∃ e ∈ entry.e, rsa n e = .ok key

def Vouched (s : JwtValidator Key) (kid : String) (key : Key) (time : Nat) : Prop :=
  ∃ f ∈ s.fetched, f.1 ≤ time ∧ time < f.1 + jwksCacheTtl ∧ Contains rsa f.2 kid key

def KeysFresh (s : JwtValidator Key) : Prop :=
  ∀ r ∈ s.returned, ∀ key, r.2.1 = .ok key → s.Vouched rsa r.1 key r.2.2

def Usable (entry : JwkJson) : Prop := ∃ n ∈ entry.n, ∃ e ∈ entry.e, (rsa n e).isOk

/-- If a usable key set no longer lists the kid it was fetched for, no key is cached under the kid,
or only one that another key set of the last five minutes lists. -/
def Rotated (s : JwtValidator Key) : ValidatorAction → Prop
  | .reply (.keys _ entries) => ∀ kid ∈ s.refreshing, (∀ entry ∈ entries, Usable rsa entry) →
      (∀ entry ∈ entries, entry.kid.getD "" ≠ kid) →
        ∀ cachedKey ∈ s.jwksCache.lookup kid, s.Vouched rsa kid cachedKey.1 s.now
  | .reply (.unreachable _) | .reply (.malformed _) | .tick _ | .call _ | .acquire _ => True

variable {rsa}

theorem parse_eq_ok {error : String} {entry : JwkJson} {jwk : Jwk} :
    Jwk.parse error entry = .ok jwk ↔
      entry.kid = jwk.kid ∧ entry.n = some jwk.n ∧ entry.e = some jwk.e := by
  obtain ⟨kid, n, e⟩ := entry
  obtain ⟨kid', n', e'⟩ := jwk
  cases n <;> cases e <;> simp [Jwk.parse]

theorem storeKeys_ok_iff {now : Nat} {jwks : List Jwk} {cache : HashMap String (Key × Nat)} :
    (storeKeys rsa now jwks cache).2 = .ok () ↔ ∀ jwk ∈ jwks, (rsa jwk.n jwk.e).isOk := by
  induction jwks generalizing cache with
  | nil => simp [storeKeys]
  | cons jwk jwks ih =>
    rw [storeKeys]
    cases hkey : rsa jwk.n jwk.e with
    | error e => simp [hkey]
    | ok key => simp [hkey, ih]

theorem lookup_storeKeys {now : Nat} {jwks : List Jwk} {cache : HashMap String (Key × Nat)}
    {kid : String} {entry : Key × Nat}
    (h : (storeKeys rsa now jwks cache).1.lookup kid = some entry) :
    cache.lookup kid = some entry ∨
      entry.2 = now ∧ ∃ jwk ∈ jwks, jwk.kid.getD "" = kid ∧ rsa jwk.n jwk.e = .ok entry.1 := by
  induction jwks generalizing cache with
  | nil => exact Or.inl h
  | cons jwk jwks ih =>
    rw [storeKeys] at h
    cases hkey : rsa jwk.n jwk.e with
    | error e =>
      rw [hkey] at h
      exact Or.inl h
    | ok key =>
      rw [hkey] at h
      rcases ih h with hcache | ⟨hnow, other, hmem, hkid⟩
      · by_cases hfiled : kid = jwk.kid.getD ""
        · rw [hfiled, AList.lookup_insert] at hcache
          cases hcache
          exact Or.inr ⟨rfl, jwk, List.mem_cons_self, hfiled.symm, hkey⟩
        · rw [AList.lookup_insert_ne hfiled] at hcache
          exact Or.inl hcache
      · exact Or.inr ⟨hnow, other, List.mem_cons_of_mem _ hmem, hkid⟩

theorem lookup_storeKeys_of_unlisted {now : Nat} {jwks : List Jwk}
    {cache : HashMap String (Key × Nat)} {kid : String}
    (h : ∀ jwk ∈ jwks, jwk.kid.getD "" ≠ kid) :
    (storeKeys rsa now jwks cache).1.lookup kid = cache.lookup kid := by
  induction jwks generalizing cache with
  | nil => rfl
  | cons jwk jwks ih =>
    rw [storeKeys]
    cases hkey : rsa jwk.n jwk.e with
    | error e => rfl
    | ok key =>
      have hne : kid ≠ jwk.kid.getD "" := (h jwk List.mem_cons_self).symm
      refine (ih fun other hmem => h other (List.mem_cons_of_mem _ hmem)).trans ?_
      exact AList.lookup_insert_ne hne

theorem lookup_storeKeys_of_listed {now : Nat} {jwks : List Jwk}
    {cache : HashMap String (Key × Nat)} {kid : String} {entry : Key × Nat}
    (hok : ∀ jwk ∈ jwks, (rsa jwk.n jwk.e).isOk) (hlisted : ∃ jwk ∈ jwks, jwk.kid.getD "" = kid)
    (h : (storeKeys rsa now jwks cache).1.lookup kid = some entry) :
    ∃ jwk ∈ jwks, jwk.kid.getD "" = kid ∧ rsa jwk.n jwk.e = .ok entry.1 := by
  induction jwks generalizing cache with
  | nil => simp at hlisted
  | cons jwk jwks ih =>
    rw [List.forall_mem_cons] at hok
    rw [storeKeys] at h
    cases hkey : rsa jwk.n jwk.e with
    | error e => simp [hkey] at hok
    | ok key =>
      rw [hkey] at h
      by_cases htail : ∃ other ∈ jwks, other.kid.getD "" = kid
      · obtain ⟨other, hmem, hother⟩ := ih hok.2 htail h
        exact ⟨other, List.mem_cons_of_mem _ hmem, hother⟩
      · have hfiled : jwk.kid.getD "" = kid := by simpa [htail] using hlisted
        rw [lookup_storeKeys_of_unlisted (by simpa using htail), hfiled, AList.lookup_insert] at h
        cases h
        exact ⟨jwk, List.mem_cons_self, hfiled, hkey⟩

theorem contains_of_jwk {error : String} {entries : List JwkJson} {jwks : List Jwk}
    (hparse : entries.mapM (Jwk.parse error) = .ok jwks) {kid : String} {key : Key}
    (h : ∃ jwk ∈ jwks, jwk.kid.getD "" = kid ∧ rsa jwk.n jwk.e = .ok key) :
    Contains rsa entries kid key := by
  obtain ⟨jwk, hmem, hkid, hkey⟩ := h
  obtain ⟨entry, hentry, hjwk⟩ := (Checks.mem_of_mapM_eq_ok hparse).1 jwk hmem
  obtain ⟨hkid', hn, he⟩ := parse_eq_ok.mp hjwk
  exact ⟨entry, hentry, hkid' ▸ hkid, jwk.n, hn, jwk.e, he, hkey⟩

theorem usable_iff {error : String} {entries : List JwkJson} {jwks : List Jwk}
    (hparse : entries.mapM (Jwk.parse error) = .ok jwks) :
    (∀ entry ∈ entries, Usable rsa entry) ↔ ∀ jwk ∈ jwks, (rsa jwk.n jwk.e).isOk := by
  have hmem := Checks.mem_of_mapM_eq_ok hparse
  constructor
  · intro h jwk hjwk
    obtain ⟨entry, hentry, hparsed⟩ := hmem.1 jwk hjwk
    obtain ⟨_, hn, he⟩ := parse_eq_ok.mp hparsed
    obtain ⟨n, hn', e, he', hok⟩ := h entry hentry
    cases hn.symm.trans hn'
    cases he.symm.trans he'
    exact hok
  · intro h entry hentry
    obtain ⟨jwk, hjwk, hparsed⟩ := hmem.2 entry hentry
    obtain ⟨_, hn, he⟩ := parse_eq_ok.mp hparsed
    exact ⟨jwk.n, hn, jwk.e, he, h jwk hjwk⟩

/-- What a call returns for a fetched key set: an error if some entry is unusable, a key of the set
if the kid is listed, and otherwise whatever the cache has. -/
inductive Refreshed (rsa : String → String → Except String Key) (s t : JwtValidator Key)
    (kid : String) (entries : List JwkJson) : Prop where
  | rejected (e : SyncError) (hunusable : ¬∀ entry ∈ entries, Usable rsa entry)
    (hreturned : t.returned = s.returned ++ [(kid, .error e, s.now)])
  | listed (result : Except SyncError Key) (hlisted : ∃ entry ∈ entries, entry.kid.getD "" = kid)
    (hcontains : ∀ key, result = .ok key → Contains rsa entries kid key)
    (hreturned : t.returned = s.returned ++ [(kid, result, s.now)])
  | cached (result : Except SyncError Key) (husable : ∀ entry ∈ entries, Usable rsa entry)
    (hunlisted : ∀ entry ∈ entries, entry.kid.getD "" ≠ kid)
    (hcached : ∀ key, result = .ok key ↔ ∃ entry ∈ s.jwksCache.lookup kid, entry.1 = key)
    (hreturned : t.returned = s.returned ++ [(kid, result, s.now)])

theorem refresh_keys (rsa : String → String → Except String Key) (s : JwtValidator Key)
    (kid error : String) (entries : List JwkJson) :
    Refreshed rsa s (s.refresh rsa kid (.keys error entries)) kid entries := by
  rw [refresh]
  cases hparse : entries.mapM (Jwk.parse error) with
  | error =>
    refine .rejected _ ?_ rfl
    obtain ⟨entry, hentry, hfails⟩ := Checks.exists_of_mapM_eq_error hparse
    intro husable
    obtain ⟨n, hn, e, he, _⟩ := husable entry hentry
    simp [Jwk.parse, Option.mem_def.mp hn, Option.mem_def.mp he] at hfails
  | ok jwks =>
    simp only
    cases hstored : (storeKeys rsa s.now jwks s.jwksCache).2 with
    | error e =>
      refine .rejected e ?_ rfl
      rw [usable_iff hparse, ← storeKeys_ok_iff, hstored]
      simp
    | ok =>
      have hok := storeKeys_ok_iff.mp hstored
      by_cases hlisted : ∃ entry ∈ entries, entry.kid.getD "" = kid
      · have hjwk : ∃ jwk ∈ jwks, jwk.kid.getD "" = kid := by
          obtain ⟨entry, hentry, hkid⟩ := hlisted
          obtain ⟨jwk, hmem, hparsed⟩ := (Checks.mem_of_mapM_eq_ok hparse).2 entry hentry
          exact ⟨jwk, hmem, (parse_eq_ok.mp hparsed).1 ▸ hkid⟩
        cases hlookup : (storeKeys rsa s.now jwks s.jwksCache).1.lookup kid with
        | none => exact .listed _ hlisted (by simp) rfl
        | some entry =>
          refine .listed _ hlisted ?_ rfl
          intro key hkey
          cases hkey
          exact contains_of_jwk hparse (lookup_storeKeys_of_listed hok hjwk hlookup)
      · have hunlisted : ∀ entry ∈ entries, entry.kid.getD "" ≠ kid := by simpa using hlisted
        have hkeep : (storeKeys rsa s.now jwks s.jwksCache).1.lookup kid =
            s.jwksCache.lookup kid := by
          apply lookup_storeKeys_of_unlisted
          intro jwk hjwk
          obtain ⟨entry, hentry, hparsed⟩ := (Checks.mem_of_mapM_eq_ok hparse).1 jwk hjwk
          exact (parse_eq_ok.mp hparsed).1 ▸ hunlisted entry hentry
        rw [hkeep]
        cases hlookup : s.jwksCache.lookup kid with
        | none => exact .cached _ ((usable_iff hparse).mpr hok) hunlisted (by simp [hlookup]) rfl
        | some entry =>
          exact .cached _ ((usable_iff hparse).mpr hok) hunlisted (by simp [hlookup]) rfl

/-- Everything in the cache comes from a key set fetched at its time stamp. -/
structure Sound (rsa : String → String → Except String Key) (s : JwtValidator Key) : Prop where
  cached : ∀ kid entry, s.jwksCache.lookup kid = some entry →
    entry.2 ≤ s.now ∧ ∃ entries, (entry.2, entries) ∈ s.fetched ∧ Contains rsa entries kid entry.1

variable {s t : JwtValidator Key}

theorem Sound.vouched (h : Sound rsa s) {kid : String} {key : Key}
    (hkey : s.cached kid = some key) : s.Vouched rsa kid key s.now := by
  rw [JwtValidator.cached] at hkey
  split at hkey
  · cases hkey
  next entry hentry =>
    split at hkey
    next hfresh =>
      cases hkey
      obtain ⟨hle, entries, hfetched, hcontains⟩ := h.cached kid entry hentry
      exact ⟨_, hfetched, hle, by omega, hcontains⟩
    next => cases hkey

theorem Vouched.mono {kid : String} {key : Key} {time : Nat} (h : s.Vouched rsa kid key time)
    (hsub : s.fetched ⊆ t.fetched) : t.Vouched rsa kid key time := by
  obtain ⟨f, hf, hrest⟩ := h
  exact ⟨f, hsub hf, hrest⟩

theorem fetched_refresh (rsa : String → String → Except String Key) (s : JwtValidator Key)
    (kid error : String) (entries : List JwkJson) :
    (s.refresh rsa kid (.keys error entries)).fetched = s.fetched ++ [(s.now, entries)] ∧
      (s.refresh rsa kid (.keys error entries)).now = s.now := by
  rw [refresh]
  cases entries.mapM (Jwk.parse error) with
  | error => exact ⟨rfl, rfl⟩
  | ok jwks =>
    simp only
    split <;> exact ⟨rfl, rfl⟩

theorem Sound.refresh (h : Sound rsa s) (kid error : String) (entries : List JwkJson) :
    Sound rsa (s.refresh rsa kid (.keys error entries)) := by
  have hframe := fetched_refresh rsa s kid error entries
  constructor
  intro k entry hlookup
  rw [hframe.1, hframe.2]
  have hcase : s.jwksCache.lookup k = some entry ∨
      entry.2 = s.now ∧ Contains rsa entries k entry.1 := by
    rw [JwtValidator.refresh] at hlookup
    cases hparse : entries.mapM (Jwk.parse error) with
    | error =>
      rw [hparse] at hlookup
      exact Or.inl hlookup
    | ok jwks =>
      rw [hparse] at hlookup
      have hstored : (storeKeys rsa s.now jwks s.jwksCache).1.lookup k = some entry := by
        simp only at hlookup
        split at hlookup <;> exact hlookup
      exact (lookup_storeKeys hstored).imp_right
        (And.imp_right fun hjwk => contains_of_jwk hparse hjwk)
  rcases hcase with hold | ⟨hnow, hcontains⟩
  · obtain ⟨hle, old, hfetched, hcontains⟩ := h.cached k entry hold
    exact ⟨hle, old, List.mem_append_left _ hfetched, hcontains⟩
  · exact ⟨Nat.le_of_eq hnow, entries, by simp [hnow], hcontains⟩

theorem Sound.step (h : Sound rsa s) {a : ValidatorAction} (hstep : s.step rsa a = some t) :
    Sound rsa t := by
  cases a with
  | tick nanos =>
    cases hstep
    constructor
    intro kid entry hentry
    obtain ⟨hle, hfetched⟩ := h.cached kid entry hentry
    exact ⟨Nat.le_add_right_of_le hle, hfetched⟩
  | call kid =>
    simp only [JwtValidator.step] at hstep
    split at hstep <;> cases hstep <;> exact ⟨h.cached⟩
  | acquire i =>
    simp only [JwtValidator.step] at hstep
    split at hstep
    · split at hstep <;> cases hstep <;> exact ⟨h.cached⟩
    · cases hstep
  | reply reply =>
    simp only [JwtValidator.step] at hstep
    split at hstep
    · cases hstep
    next kid hkid =>
      cases hstep
      cases reply with
      | unreachable | malformed => exact ⟨h.cached⟩
      | keys error entries =>
        have hfree : Sound rsa { s with refreshing := none } := ⟨h.cached⟩
        exact hfree.refresh kid error entries

theorem keysFresh_append {kid : String} {result : Except SyncError Key} {time : Nat}
    (h : s.KeysFresh rsa) (hfetched : s.fetched ⊆ t.fetched)
    (hreturned : t.returned = s.returned ++ [(kid, result, time)]) :
    t.KeysFresh rsa ↔ ∀ key, result = .ok key → t.Vouched rsa kid key time := by
  constructor
  · intro ht
    exact ht (kid, result, time) (by simp [hreturned])
  · intro hnew r hr key hkey
    rw [hreturned, List.mem_append, List.mem_singleton] at hr
    rcases hr with hold | rfl
    · exact (h r hold key hkey).mono hfetched
    · exact hnew key hkey

theorem refresh_iff (h : s.KeysFresh rsa) {kid : String} (hkid : s.refreshing = some kid)
    (error : String) (entries : List JwkJson) :
    ({ s with refreshing := none }.refresh rsa kid (.keys error entries)).KeysFresh rsa ↔
      s.Rotated rsa (.reply (.keys error entries)) := by
  have hframe := (fetched_refresh rsa { s with refreshing := none } kid error entries).1
  simp only [Rotated, hkid, Option.mem_some_iff, forall_eq']
  cases refresh_keys rsa { s with refreshing := none } kid error entries with
  | rejected e hunusable hreturned =>
    rw [keysFresh_append h (by simp [hframe]) hreturned]
    simp [hunusable]
  | listed result hlisted hcontains hreturned =>
    rw [keysFresh_append h (by simp [hframe]) hreturned]
    constructor
    · intro _ _ hunlisted
      obtain ⟨entry, hentry, heq⟩ := hlisted
      exact absurd heq (hunlisted entry hentry)
    · intro _ key hkey
      refine ⟨(s.now, entries), by simp [hframe], Nat.le_refl _, ?_, hcontains key hkey⟩
      exact Nat.lt_add_of_pos_right (by decide)
  | cached result husable hunlisted hcached hreturned =>
    rw [keysFresh_append h (by simp [hframe]) hreturned]
    have hvouched (key : Key) :
        ({ s with refreshing := none }.refresh rsa kid (.keys error entries)).Vouched rsa kid key
          s.now ↔ s.Vouched rsa kid key s.now := by
      constructor
      · rintro ⟨f, hf, hle, hlt, hcontains⟩
        simp only [hframe, List.mem_append, List.mem_singleton] at hf
        rcases hf with hold | rfl
        · exact ⟨f, hold, hle, hlt, hcontains⟩
        · obtain ⟨entry, hentry, heq, _⟩ := hcontains
          exact absurd heq (hunlisted entry hentry)
      · intro hold
        exact hold.mono (by simp [hframe])
    simp only [hvouched, hcached]
    constructor
    · intro hall _ _ entry hentry
      exact hall entry.1 ⟨entry, hentry, rfl⟩
    · rintro hall _ ⟨entry, hentry, rfl⟩
      exact hall husable hunlisted entry hentry

theorem keysFresh_cached (hs : Sound rsa s) (h : s.KeysFresh rsa) {kid : String} {key : Key}
    (hkey : s.cached kid = some key) (hfetched : t.fetched = s.fetched)
    (hreturned : t.returned = s.returned ++ [(kid, .ok key, s.now)]) : t.KeysFresh rsa := by
  rw [keysFresh_append h (by simp [hfetched]) hreturned]
  intro other hother
  cases hother
  exact (hs.vouched hkey).mono (by simp [hfetched])

theorem keysFresh_step_iff (hs : Sound rsa s) (h : s.KeysFresh rsa) {a : ValidatorAction}
    (hstep : s.step rsa a = some t) : t.KeysFresh rsa ↔ s.Rotated rsa a := by
  cases a with
  | tick nanos =>
    cases hstep
    exact ⟨fun _ => trivial, fun _ => h⟩
  | call kid =>
    simp only [JwtValidator.step] at hstep
    simp only [Rotated, iff_true]
    split at hstep
    next key hkey =>
      cases hstep
      exact keysFresh_cached hs h hkey rfl rfl
    next =>
      cases hstep
      exact h
  | acquire i =>
    simp only [JwtValidator.step] at hstep
    simp only [Rotated, iff_true]
    split at hstep
    · split at hstep
      next key hkey =>
        cases hstep
        exact keysFresh_cached hs h hkey rfl rfl
      next =>
        cases hstep
        exact h
    · cases hstep
  | reply reply =>
    simp only [JwtValidator.step] at hstep
    split at hstep
    · cases hstep
    next kid hkid =>
      cases hstep
      cases reply with
      | unreachable error | malformed error =>
        simp only [Rotated, iff_true]
        refine (keysFresh_append h ?_ rfl).mpr (by simp)
        exact fun _ hf => hf
      | keys error entries => exact refresh_iff h hkid error entries

/-- In every run, all keys that `get_or_fetch_key` returns are listed under their kid in a key set
fetched less than the TTL before, exactly if each refresh meets `Rotated`. -/
theorem keysFresh_iff (rsa : String → String → Except String Key) (as : List ValidatorAction) :
    Always (step rsa) (KeysFresh rsa) new as ↔ Meets (step rsa) (Rotated rsa) new as := by
  apply always_iff_meets (J := fun s => Sound rsa s ∧ s.KeysFresh rsa) (E := fun _ _ => True)
  · intro s hs
    exact hs.2
  · intro s a t hs _ hstep
    exact keysFresh_step_iff hs.1 hs.2 hstep
  · intro s a t hs _ hstep ht
    exact ⟨hs.1.step hstep, ht⟩
  · exact meets_of_forall fun _ _ => trivial
  · exact ⟨⟨by simp [new]⟩, by simp [KeysFresh, new]⟩

/-- The issuer replaces key `k1` by `k2`. A token signed with `k1` still gets its key five minutes
after the key set that listed it was fetched: the refresh finds no `k1` in the new key set, and the
last lookup takes the expired entry. -/
theorem removed_key_outlives_ttl :
    ∃ t, run (step fun n _ => .ok n) (new : JwtValidator String)
        [.call "k1", .acquire 0, .reply (.keys "" [⟨some "k1", some "old", some "AQAB"⟩]),
          .tick jwksCacheTtl, .call "k1", .acquire 0,
          .reply (.keys "" [⟨some "k2", some "new", some "AQAB"⟩])] = some t ∧
      t.returned = [("k1", .ok "old", 0), ("k1", .ok "old", jwksCacheTtl)] ∧
      ¬t.KeysFresh fun n _ => .ok n := by
  refine ⟨_, rfl, rfl, ?_⟩
  intro h
  obtain ⟨f, hf, _, hlt, entry, hentry, hkid, _⟩ :=
    h ("k1", .ok "old", jwksCacheTtl) (by decide) "old" rfl
  change f ∈ [(0, _), (jwksCacheTtl, [⟨some "k2", _, _⟩])] at hf
  simp only [List.mem_cons, List.not_mem_nil, or_false] at hf
  rcases hf with rfl | rfl
  · simp at hlt
  · rw [List.mem_singleton] at hentry
    subst hentry
    exact absurd hkid (by decide)

end

end JwtValidator

end EntitySync.Gateway
