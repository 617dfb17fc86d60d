import EntitySync.Core.Types
import EntitySync.Library.Delimited
import EntitySync.Library.TomlLexer

/-!
# Environment variables in `config.toml`

Before `config.toml` is parsed, `interpolate_env_vars` replaces every reference to an environment
variable in its text by the value, escaped for a TOML basic string. So the values are spliced into
source text, and what keeps them from becoming structure is the escaping alone.
-/

namespace EntitySync.Config

open TomlLexer

/-- The error of interpolation; `Read` and `Parse` are raised around it. -/
inductive ConfigError where
  | missingEnvVar (name : String)
deriving DecidableEq

/-- A digit of `{:X}`. -/
def hexUpper (n : Nat) : Char := (n % 16).digitChar.toUpper

/-- `{:04X}` of a code below 65536. -/
def hexPadded (n : Nat) : List Char :=
  [hexUpper (n / 4096), hexUpper (n / 256), hexUpper (n / 16), hexUpper n]

def escapeTomlChar (ch : Char) : List Char :=
  if ch = '\x5c' then ['\x5c', '\x5c']
  else if ch = '\x22' then ['\x5c', '\x22']
  else if ch = '\n' then ['\x5c', 'n']
  else if ch = '\r' then ['\x5c', 'r']
  else if ch = '\t' then ['\x5c', 't']
  else if ch.toNat < 0x20 ∨ ch.toNat = 0x7f then '\x5c' :: 'u' :: hexPadded ch.toNat
  else [ch]

def escapeTomlBasicString (value : String) : String :=
  String.ofList (value.toList.flatMap escapeTomlChar)

def marker : List Char := ['$', '\x7b']

def lookupVar (envLookup : String → Option String) (cache : HashMap String String)
    (varName : String) : Except ConfigError (String × HashMap String String) :=
  match cache.lookup varName with
  | some cached => .ok (cached, cache)
  | none =>
    match envLookup varName with
    | none => .error (.missingEnvVar varName)
    | some resolved => .ok (resolved, cache.insert varName resolved)

theorem length_lt_of_splitFirst {pattern l : List Char} (hpattern : pattern ≠ [])
    {s : List Char × List Char} (h : Delimited.splitFirst pattern l = some s) :
    s.2.length < l.length := by
  have hlength := congrArg List.length (Delimited.firstAt_of_splitFirst h).eq
  have hpos := List.length_pos_iff.mpr hpattern
  simp only [List.length_append] at hlength
  omega

/-- The loop of `interpolate_env_vars`, from the text `rest` on. -/
def interpolateLoop (envLookup : String → Option String) (output : List Char)
    (cache : HashMap String String) (rest : List Char) : Except ConfigError (List Char) :=
  match _hmarker : Delimited.splitFirst marker rest with
  | none => .ok (output ++ rest)
  | some (before, afterMarker) =>
    match _hbrace : Delimited.splitFirst ['\x7d'] afterMarker with
    | none => .ok (output ++ before ++ (marker ++ afterMarker))
    | some (varName, behind) =>
      match lookupVar envLookup cache (String.ofList varName) with
      | .error e => .error e
      | .ok (value, cache) =>
        interpolateLoop envLookup (output ++ before ++ (escapeTomlBasicString value).toList) cache
          behind
termination_by rest.length
decreasing_by
  have hbehind := length_lt_of_splitFirst (by decide) _hbrace
  have hafter := length_lt_of_splitFirst (by decide) _hmarker
  simp only at hbehind hafter
  omega

def interpolateEnvVars (input : String) (envLookup : String → Option String) :
    Except ConfigError String :=
  (interpolateLoop envLookup [] ∅ input.toList).map String.ofList

/-! ### Escaping -/

theorem hexValue_hexUpper (n : Nat) : hexValue (hexUpper n) = some (n % 16) := by
  have hdigits : ∀ k < 16, hexValue k.digitChar.toUpper = some k := by decide
  exact hdigits (n % 16) (Nat.mod_lt n (by decide))

theorem scalar_toNat (c : Char) : scalar c.toNat = some c := by
  have hvalid : c.toNat.isValidChar := c.valid
  rw [scalar, if_pos hvalid, Char.ofNat_toNat]

theorem decodes_escapeTomlChar (c : Char) : Decodes (escapeTomlChar c) [c] := by
  rw [escapeTomlChar]
  split
  next h => exact decodes_shortEscape (by rw [h]; rfl)
  split
  next h => exact decodes_shortEscape (by rw [h]; rfl)
  split
  next h => exact decodes_shortEscape (by rw [h]; rfl)
  split
  next h => exact decodes_shortEscape (by rw [h]; rfl)
  split
  next h => exact decodes_shortEscape (by rw [h]; rfl)
  split
  next h =>
    apply decodes_unicode (hexValue_hexUpper _) (hexValue_hexUpper _) (hexValue_hexUpper _)
      (hexValue_hexUpper _)
    rw [← scalar_toNat c]
    congr 1
    omega
  next hbackslash hquote _ _ _ hcontrol =>
    apply decodes_text _ hquote hbackslash
    simp [isText]
    omega

theorem decodes_escapeTomlBasicString (value : String) :
    Decodes (escapeTomlBasicString value).toList value.toList := by
  rw [escapeTomlBasicString, String.toList_ofList]
  exact Decodes.flatMap decodes_escapeTomlChar value.toList

/-! ### The references of a text -/

def written (name : String) : List Char := marker ++ (name.toList ++ ['\x7d'])

def rawValue (envLookup : String → Option String) (name : String) : List Char :=
  ((envLookup name).getD "").toList

def escapedValue (envLookup : String → Option String) (name : String) : List Char :=
  (escapeTomlBasicString ((envLookup name).getD "")).toList

/-- The text cut into its references, from left to right, and the characters around them: a
reference goes from the first marker to the next closing brace. Behind the last one, no marker
has a closing brace. -/
inductive Cut : List Char → List (Piece String) → Prop where
  | plain {text : List Char} (h : ∀ front back, text = front ++ (marker ++ back) → '\x7d' ∉ back) :
    Cut text (text.map .lit)
  | reference {text before name rest : List Char} {ps : List (Piece String)}
      (hfirst : Delimited.FirstAt marker text before (name ++ '\x7d' :: rest))
      (hname : '\x7d' ∉ name) (hrest : Cut rest ps) :
    Cut text (before.map .lit ++ .hole (String.ofList name) :: ps)

theorem fill_map_lit {η : Type} (f : η → List Char) (cs : List Char) :
    fill f (cs.map .lit) = cs := by
  induction cs with
  | nil => rfl
  | cons c cs ih => rw [List.map_cons, fill_cons, ih, Piece.fill_lit, List.singleton_append]

theorem Cut.fill_written {text : List Char} {ps : List (Piece String)} (h : Cut text ps) :
    fill written ps = text := by
  induction h with
  | plain => exact fill_map_lit written _
  | reference hfirst _ _ ih => simp [fill_map_lit, ih, hfirst.eq, written]

theorem exists_cut (text : List Char) : ∃ ps, Cut text ps := by
  cases hmarker : Delimited.splitFirst marker text with
  | none =>
    exact ⟨_, .plain fun front back heq =>
      absurd heq (Delimited.splitFirst_eq_none hmarker front back)⟩
  | some s =>
    have hfirst := Delimited.firstAt_of_splitFirst hmarker
    cases hbrace : Delimited.splitFirst ['\x7d'] s.2 with
    | none =>
      -- the first marker has no closing brace, so no later one has
      refine ⟨_, .plain ?_⟩
      intro front back heq hmem
      obtain ⟨x, y, hxy⟩ := List.append_of_mem (hfirst.mem_back heq hmem)
      exact Delimited.splitFirst_eq_none hbrace x y hxy
    | some t =>
      have hclose := Delimited.firstAt_of_splitFirst hbrace
      obtain ⟨ps, hps⟩ := exists_cut t.2
      have hreference : Delimited.FirstAt marker text s.1 (t.1 ++ '\x7d' :: t.2) := by
        have heq := hclose.eq
        rw [List.singleton_append] at heq
        rw [← heq]
        exact hfirst
      exact ⟨_, .reference hreference hclose.notMem hps⟩
termination_by text.length
decreasing_by
  have hbehind := length_lt_of_splitFirst (by decide) hbrace
  have hafter := length_lt_of_splitFirst (by decide) hmarker
  omega

/-! ### The loop -/

def CacheOf (envLookup : String → Option String) (cache : HashMap String String) : Prop :=
  ∀ name value, cache.lookup name = some value → envLookup name = some value

section Loop

variable {envLookup : String → Option String} {cache : HashMap String String}

theorem lookupVar_of_set (hcache : CacheOf envLookup cache) {name value : String}
    (h : envLookup name = some value) :
    ∃ cache', lookupVar envLookup cache name = .ok (value, cache') ∧ CacheOf envLookup cache' := by
  rw [lookupVar]
  split
  next cached hcached =>
    have hvalue := (hcache name cached hcached).symm.trans h
    rw [Option.some.injEq] at hvalue
    exact ⟨cache, by rw [hvalue], hcache⟩
  next =>
    refine ⟨cache.insert name value, by rw [h], ?_⟩
    intro other v hv
    by_cases heq : other = name
    · subst heq
      rw [AList.lookup_insert] at hv
      exact h.trans hv
    · rw [AList.lookup_insert_ne heq] at hv
      exact hcache other v hv

theorem lookupVar_of_unset (hcache : CacheOf envLookup cache) {name : String}
    (h : envLookup name = none) :
    lookupVar envLookup cache name = .error (.missingEnvVar name) := by
  rw [lookupVar]
  split
  next cached hcached =>
    have hvalue := (hcache name cached hcached).symm.trans h
    cases hvalue
  next => rw [h]

theorem interpolateLoop_plain {text : List Char}
    (h : ∀ front back, text = front ++ (marker ++ back) → '\x7d' ∉ back) (output : List Char) :
    interpolateLoop envLookup output cache text = .ok (output ++ text) := by
  rw [interpolateLoop]
  split
  · rfl
  next before afterMarker hmarker =>
    have htext := (Delimited.firstAt_of_splitFirst hmarker).eq
    split
    next => rw [List.append_assoc, ← htext]
    next varName behind hbrace =>
      have hafter := (Delimited.firstAt_of_splitFirst hbrace).eq
      have hnone := h before afterMarker htext
      simp [hafter] at hnone

theorem interpolateLoop_reference {text before name rest : List Char}
    (hfirst : Delimited.FirstAt marker text before (name ++ '\x7d' :: rest))
    (hname : '\x7d' ∉ name) (output : List Char) :
    interpolateLoop envLookup output cache text =
      match lookupVar envLookup cache (String.ofList name) with
      | .error e => .error e
      | .ok (value, cache) =>
        interpolateLoop envLookup (output ++ before ++ (escapeTomlBasicString value).toList) cache
          rest := by
  have hmarker := Delimited.splitFirst_eq_some.mpr hfirst
  have hbrace := Delimited.splitFirst_eq_some.mpr (Delimited.firstAt_singleton (u := rest) hname)
  rw [interpolateLoop]
  split
  next hnone =>
    rw [hmarker] at hnone
    cases hnone
  next before' afterMarker hsome =>
    rw [hmarker] at hsome
    cases hsome
    split
    next hnone =>
      rw [hbrace] at hnone
      cases hnone
    next varName behind hsome =>
      rw [hbrace] at hsome
      cases hsome
      rfl

def unset (envLookup : String → Option String) : Piece String → Option String
  | .lit _ => none
  | .hole name => if envLookup name = none then some name else none

theorem findSome?_unset_lits (cs : List Char) :
    (cs.map Piece.lit).findSome? (unset envLookup) = none := by
  simp [unset]

theorem interpolateLoop_of_cut {text : List Char} {ps : List (Piece String)} (h : Cut text ps)
    (hcache : CacheOf envLookup cache) (output : List Char) :
    interpolateLoop envLookup output cache text =
      match ps.findSome? (unset envLookup) with
      | some name => .error (.missingEnvVar name)
      | none => .ok (output ++ fill (escapedValue envLookup) ps) := by
  induction h generalizing cache output with
  | plain hplain =>
    rw [interpolateLoop_plain hplain, findSome?_unset_lits, fill_map_lit]
  | @reference text before name rest ps hfirst hname _ ih =>
    rw [interpolateLoop_reference hfirst hname, List.findSome?_append, findSome?_unset_lits]
    cases hvalue : envLookup (String.ofList name) with
    | none => simp [lookupVar_of_unset hcache hvalue, unset, hvalue]
    | some value =>
      obtain ⟨cache', hlookup, hcache'⟩ := lookupVar_of_set hcache hvalue
      rw [hlookup]
      simp only [ih hcache']
      simp [unset, hvalue, fill_map_lit, escapedValue]

end Loop

theorem interpolateEnvVars_of_cut (envLookup : String → Option String) {input : String}
    {ps : List (Piece String)} (h : Cut input.toList ps) :
    interpolateEnvVars input envLookup =
      match ps.findSome? (unset envLookup) with
      | some name => .error (.missingEnvVar name)
      | none => .ok (String.ofList (fill (escapedValue envLookup) ps)) := by
  have hcache : CacheOf envLookup ∅ := by
    intro name value hlookup
    simp at hlookup
  rw [interpolateEnvVars, interpolateLoop_of_cut h hcache]
  cases ps.findSome? (unset envLookup) <;> rfl

/-! ### Lexing before and after -/

theorem written_ne_nil (name : String) : written name ≠ [] := List.cons_ne_nil _ _

theorem holeText_written {name : String}
    (h : '\x22' ∉ name.toList ∧ '\x5c' ∉ name.toList) : HoleText (written name) := by
  constructor
  · intro c hc
    simp only [written, marker, List.mem_append, List.mem_cons, List.not_mem_nil, or_false] at hc
    constructor
    · rintro rfl
      exact h.1 (by simpa using hc)
    · rintro rfl
      exact h.2 (by simpa using hc)
  · exact ⟨'$', _, rfl, by decide, by decide, by decide, by decide⟩

theorem decodes_escapedValue (envLookup : String → Option String) (name : String) :
    Decodes (escapedValue envLookup name) (rawValue envLookup name) :=
  decodes_escapeTomlBasicString _

/-- Environment values are inert in the configuration. Every text has a cut into references, and
interpolation fails at the leftmost reference to a variable that is not set; otherwise it replaces
each reference by the escaped value and keeps the rest. If the text is lexically valid TOML, its
references lie inside single-line basic strings, and their names have neither quotes nor
backslashes, then the result has the tokens of the text, with the raw values for the references. -/
theorem environment_inert (envLookup : String → Option String) (input : String) :
    (∃ ps, Cut input.toList ps) ∧ ∀ ps, Cut input.toList ps →
      fill written ps = input.toList ∧
      (∀ name, ps.findSome? (unset envLookup) = some name →
        interpolateEnvVars input envLookup = .error (.missingEnvVar name)) ∧
      (ps.findSome? (unset envLookup) = none → interpolateEnvVars input envLookup =
        .ok (String.ofList (fill (escapedValue envLookup) ps))) ∧
      ∀ tokens output, lex input.toList = some tokens → HolesInBasic written .between ps →
        (∀ name, .hole name ∈ ps → '\x22' ∉ name.toList ∧ '\x5c' ∉ name.toList) →
        interpolateEnvVars input envLookup = .ok output →
          ∃ template, lexTemplate ps = some template ∧
            tokens = template.map (Token.fill written) ∧
            lex output.toList = some (template.map (Token.fill (rawValue envLookup))) := by
  refine ⟨exists_cut input.toList, ?_⟩
  intro ps hps
  have hresult := interpolateEnvVars_of_cut envLookup hps
  refine ⟨hps.fill_written, ?_, ?_, ?_⟩
  · intro name hname
    rw [hresult, hname]
  · intro hset
    rw [hresult, hset]
  · intro tokens output htokens hinside hnames houtput
    rw [← hps.fill_written] at htokens
    obtain ⟨template, htemplate, heq⟩ := lexTemplate_of_lex written_ne_nil htokens hinside
      fun name hname => holeText_written (hnames name hname)
    refine ⟨template, htemplate, heq, ?_⟩
    have hfill : output.toList = fill (escapedValue envLookup) ps := by
      rw [hresult] at houtput
      split at houtput
      · cases houtput
      · cases houtput
        exact String.toList_ofList
    rw [hfill]
    exact lex_fill htemplate fun name _ => decodes_escapedValue envLookup name

private theorem hole_notMem_lits (cs : List Char) (name : String) :
    Piece.hole name ∉ cs.map Piece.lit := by
  simp

private theorem holesInBasic_one {before behind : List Char} {name : String} {s : Result Char}
    (hrun : run id .between before = some s) (hs : s.2.InBasic) :
    HolesInBasic written .between (before.map .lit ++ .hole name :: behind.map .lit) := by
  intro front other back heq
  rw [List.append_eq_append_iff] at heq
  obtain ⟨more, hfront, hmore⟩ | ⟨more, hbefore, hmore⟩ := heq
  · cases more with
    | nil =>
      rw [hfront, List.append_nil, fill_map_lit]
      exact ⟨s, hrun, hs⟩
    | cons p more =>
      have hmem : Piece.hole other ∈ behind.map Piece.lit := by
        rw [(List.cons.inj hmore).2]
        simp
      exact absurd hmem (hole_notMem_lits behind other)
  · cases more with
    | nil =>
      rw [List.append_nil] at hbefore
      rw [← hbefore, fill_map_lit]
      exact ⟨s, hrun, hs⟩
    | cons p more =>
      have hmem : Piece.hole other ∈ before.map Piece.lit := by
        rw [hbefore, (List.cons.inj hmore).1]
        simp
      exact absurd hmem (hole_notMem_lits before other)

private def secretToml : String := "secret = \x22$\x7bAUTH_SECRET\x7d\x22\n"

/-- A value that closes the string, a new table, and a string to be closed. -/
private def injection : String := "x\x22\n[injected]\nfoo = \x22bar"

private def injectingEnv (name : String) : Option String :=
  if name = "AUTH_SECRET" then some injection else none

theorem environment_inert_secret : ∃ output,
    interpolateEnvVars secretToml injectingEnv = .ok output ∧
    lex output.toList = some [.word "secret".toList, .space ' ', .punct '=', .space ' ',
      .basic injection.toList, .newline] := by
  have hcut : Cut secretToml.toList ("secret = \x22".toList.map .lit ++
      .hole "AUTH_SECRET" :: "\x22\n".toList.map .lit) := by
    refine .reference (Delimited.splitFirst_eq_some.mp ?_) (by decide) (.plain ?_)
    · decide
    · intro front back heq
      have hnone : Delimited.splitFirst marker "\x22\n".toList = none := by decide
      exact absurd heq (Delimited.splitFirst_eq_none hnone front back)
  have hrun : run id .between "secret = \x22".toList = some ([.word "secret".toList, .space ' ',
      .punct '=', .space ' '], .basic []) := by decide
  have hinert := (environment_inert injectingEnv secretToml).2 _ hcut
  have houtput := hinert.2.2.1 (by decide)
  obtain ⟨template, htemplate, _, hlex⟩ := hinert.2.2.2 _ _ (by rfl)
    (holesInBasic_one hrun trivial) (by simp) houtput
  refine ⟨_, houtput, ?_⟩
  cases htemplate
  exact hlex

end EntitySync.Config
