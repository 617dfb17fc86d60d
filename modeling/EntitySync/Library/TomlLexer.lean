import Mathlib.Data.List.Basic

/-!
# Lexing TOML

The lexical rules of TOML 1.0 as a machine that reads one character at a time: white space, comments
and newlines, punctuation, bare words, and the four kinds of strings with their escapes. A text that
breaks a rule has no tokens.

The content of a single-line basic string is a list over `α`: of characters when a text is lexed,
and of pieces when a template is, that is, a text with holes. A template whose holes lie inside
single-line basic strings is lexed once, and its tokens then say how every text is lexed that
fills the holes.
-/

namespace TomlLexer

inductive Token (α : Type) where
  | space (c : Char)
  | newline
  | comment (text : List Char)
  | punct (c : Char)
  | word (chars : List Char)
  | basic (content : List α)
  | literal (content : List Char)
  | multi (raw : Bool) (content : List Char)
deriving DecidableEq, Repr

/-- What the machine is in the middle of. A multi-line string is `raw` if its quotes are single. -/
inductive Mode (α : Type) where
  | between
  | carriage
  | comment (text : List Char)
  | word (chars : List Char)
  | basic (content : List α)
  | escape (content : List α)
  | unicode (content : List α) (left value : Nat)
  | closed (content : List α)
  | literal (content : List Char)
  | literalClosed (content : List Char)
  | multiStart (raw : Bool)
  | multi (raw : Bool) (content : List Char) (quotes : Nat)
  | multiCarriage (raw : Bool) (content : List Char)
  | multiEscape (content : List Char)
  | multiUnicode (content : List Char) (left value : Nat)
  | multiTrim (content : List Char) (broken : Bool)
  | multiTrimCarriage (content : List Char)
  | multiEnd
deriving DecidableEq, Repr

def isBare (c : Char) : Bool := c.isAlphanum || "_-+:".toList.contains c

def isPunct (c : Char) : Bool := "[]\x7b\x7d=,.".toList.contains c

/-- What may stand in a comment or a string as it is: no control character but the tab. -/
def isText (c : Char) : Bool := c == '\t' || (0x20 ≤ c.toNat && c.toNat != 0x7f)

def shortEscape (c : Char) : Option Char :=
  if c = 'b' then some '\x08'
  else if c = 't' then some '\t'
  else if c = 'n' then some '\n'
  else if c = 'f' then some '\x0c'
  else if c = 'r' then some '\r'
  else if c = '\x22' then some '\x22'
  else if c = '\x5c' then some '\x5c'
  else none

def hexValue (c : Char) : Option Nat :=
  if c.isDigit then some (c.toNat - 48)
  else if 'A' ≤ c ∧ c ≤ 'F' then some (c.toNat - 55)
  else if 'a' ≤ c ∧ c ≤ 'f' then some (c.toNat - 87)
  else none

def scalar (n : Nat) : Option Char := if n.isValidChar then some (Char.ofNat n) else none

def delimiter (raw : Bool) : Char := if raw then '\x27' else '\x22'

section Machine

variable {α : Type}

abbrev Result (α : Type) := List (Token α) × Mode α

def outside (c : Char) : Option (Result α) :=
  if c = ' ' ∨ c = '\t' then some ([.space c], .between)
  else if c = '\n' then some ([.newline], .between)
  else if c = '\r' then some ([], .carriage)
  else if c = '#' then some ([], .comment [])
  else if c = '\x22' then some ([], .basic [])
  else if c = '\x27' then some ([], .literal [])
  else if isPunct c then some ([.punct c], .between)
  else if isBare c then some ([], .word [c])
  else none

def endBefore (token : Token α) (c : Char) : Option (Result α) :=
  (outside c).map fun r => (token :: r.1, r.2)

/-- A string that is complete may not touch another one. -/
def behindString (token : Token α) (c : Char) : Option (Result α) :=
  if c = '\x22' ∨ c = '\x27' then none else endBefore token c

def inMulti (raw : Bool) (content : List Char) (c : Char) : Option (Result α) :=
  if c = delimiter raw then some ([], .multi raw content 1)
  else if c = '\x5c' ∧ raw = false then some ([], .multiEscape content)
  else if c = '\n' then some ([], .multi raw (content ++ ['\n']) 0)
  else if c = '\r' then some ([], .multiCarriage raw (content ++ ['\n']))
  else if isText c then some ([], .multi raw (content ++ [c]) 0)
  else none

/-- Up to two quotes in front of the closing three belong to the content. -/
def multiToken (raw : Bool) (content : List Char) (quotes : Nat) : Token α :=
  .multi raw (content ++ List.replicate (quotes - 3) (delimiter raw))

variable (lit : Char → α)

def step : Mode α → Char → Option (Result α)
  | .between, c => outside c
  | .carriage, c => if c = '\n' then some ([.newline], .between) else none
  | .comment text, c =>
    if isText c then some ([], .comment (text ++ [c]))
    else if c = '\n' ∨ c = '\r' then endBefore (.comment text) c
    else none
  | .word chars, c =>
    if isBare c then some ([], .word (chars ++ [c])) else endBefore (.word chars) c
  | .basic content, c =>
    if c = '\x22' then some ([], .closed content)
    else if c = '\x5c' then some ([], .escape content)
    else if isText c then some ([], .basic (content ++ [lit c]))
    else none
  | .escape content, c =>
    if c = 'u' then some ([], .unicode content 4 0)
    else if c = 'U' then some ([], .unicode content 8 0)
    else (shortEscape c).map fun d => ([], .basic (content ++ [lit d]))
  | .unicode content left value, c =>
    (hexValue c).bind fun d =>
      if left ≤ 1 then (scalar (16 * value + d)).map fun e => ([], .basic (content ++ [lit e]))
      else some ([], .unicode content (left - 1) (16 * value + d))
  | .closed content, c =>
    -- two quotes are an empty string, and three open a multi-line one
    if c = '\x22' ∧ content = [] then some ([], .multiStart false)
    else behindString (.basic content) c
  | .literal content, c =>
    if c = '\x27' then some ([], .literalClosed content)
    else if isText c then some ([], .literal (content ++ [c]))
    else none
  | .literalClosed content, c =>
    if c = '\x27' ∧ content = [] then some ([], .multiStart true)
    else behindString (.literal content) c
  | .multiStart raw, c =>
    -- a newline right behind the opening quotes is dropped
    if c = '\n' then some ([], .multi raw [] 0)
    else if c = '\r' then some ([], .multiCarriage raw [])
    else inMulti raw [] c
  | .multi raw content quotes, c =>
    if c = delimiter raw then
      if quotes = 4 then some ([multiToken raw content 5], .multiEnd)
      else some ([], .multi raw content (quotes + 1))
    else if 3 ≤ quotes then behindString (multiToken raw content quotes) c
    else inMulti raw (content ++ List.replicate quotes (delimiter raw)) c
  | .multiCarriage raw content, c => if c = '\n' then some ([], .multi raw content 0) else none
  | .multiEscape content, c =>
    if c = 'u' then some ([], .multiUnicode content 4 0)
    else if c = 'U' then some ([], .multiUnicode content 8 0)
    else if c = ' ' ∨ c = '\t' then some ([], .multiTrim content false)
    else if c = '\n' then some ([], .multiTrim content true)
    else if c = '\r' then some ([], .multiTrimCarriage content)
    else (shortEscape c).map fun d => ([], .multi false (content ++ [d]) 0)
  | .multiUnicode content left value, c =>
    (hexValue c).bind fun d =>
      if left ≤ 1 then (scalar (16 * value + d)).map fun e => ([], .multi false (content ++ [e]) 0)
      else some ([], .multiUnicode content (left - 1) (16 * value + d))
  | .multiTrim content broken, c =>
    if c = ' ' ∨ c = '\t' then some ([], .multiTrim content broken)
    else if c = '\n' then some ([], .multiTrim content true)
    else if c = '\r' then some ([], .multiTrimCarriage content)
    else if broken then inMulti false content c
    else none
  | .multiTrimCarriage content, c => if c = '\n' then some ([], .multiTrim content true) else none
  | .multiEnd, c => if c = '\x22' ∨ c = '\x27' then none else outside c

def finish : Mode α → Option (List (Token α))
  | .between | .multiEnd => some []
  | .comment text => some [.comment text]
  | .word chars => some [.word chars]
  | .closed content => some [.basic content]
  | .literalClosed content => some [.literal content]
  | .multi raw content quotes => if 3 ≤ quotes then some [multiToken raw content quotes] else none
  | .carriage | .basic _ | .escape _ | .unicode _ _ _ | .literal _ | .multiStart _
  | .multiCarriage _ _ | .multiEscape _ | .multiUnicode _ _ _ | .multiTrim _ _
  | .multiTrimCarriage _ => none

def run : Mode α → List Char → Option (Result α)
  | m, [] => some ([], m)
  | m, c :: cs => (step lit m c).bind fun r => (run r.2 cs).map fun s => (r.1 ++ s.1, s.2)

end Machine

/-- The tokens of a text; `none` if it is not lexically valid. -/
def lex (cs : List Char) : Option (List (Token Char)) :=
  (run id .between cs).bind fun r => (finish r.2).map (r.1 ++ ·)

example : lex "a = \x22x\\u00e9\\n\x22 # \x22\n\x27\x27\x27\n\\\x27\x27\x27".toList = some
    [.word ['a'], .space ' ', .punct '=', .space ' ', .basic ['x', 'é', '\n'], .space ' ',
      .comment [' ', '\x22'], .newline, .multi true ['\x5c']] := by decide

/-! ### Runs -/

section Runs

variable {α : Type} (lit : Char → α)

@[simp] theorem run_nil (m : Mode α) : run lit m [] = some ([], m) := rfl

@[simp] theorem run_cons (m : Mode α) (c : Char) (cs : List Char) :
    run lit m (c :: cs) =
      (step lit m c).bind fun r => (run lit r.2 cs).map fun s => (r.1 ++ s.1, s.2) := rfl

theorem run_append (m : Mode α) (cs ds : List Char) :
    run lit m (cs ++ ds) =
      (run lit m cs).bind fun r => (run lit r.2 ds).map fun s => (r.1 ++ s.1, s.2) := by
  induction cs generalizing m with
  | nil => simp
  | cons c cs ih =>
    cases hstep : step lit m c with
    | none => simp [hstep]
    | some r =>
      simp only [List.cons_append, run_cons, hstep, Option.bind_some, ih]
      cases hrun : run lit r.2 cs with
      | none => simp
      | some s => simp [Function.comp_def]

end Runs

/-! ### What is read as content -/

/-- Inside a basic string, this text is read as this content. -/
def Decodes (written content : List Char) : Prop :=
  ∀ front : List Char, run id (.basic front) written = some ([], .basic (front ++ content))

theorem Decodes.nil : Decodes [] [] := by
  intro front
  simp

theorem Decodes.append {xs ys us vs : List Char} (hx : Decodes xs us) (hy : Decodes ys vs) :
    Decodes (xs ++ ys) (us ++ vs) := by
  intro front
  simp [run_append, hx front, hy (front ++ us)]

/-- A text escaped character by character is read as the text. -/
theorem Decodes.flatMap {escape : Char → List Char} (h : ∀ c, Decodes (escape c) [c])
    (cs : List Char) : Decodes (cs.flatMap escape) cs := by
  induction cs with
  | nil => exact Decodes.nil
  | cons c cs ih => exact (h c).append ih

theorem decodes_text {c : Char} (htext : isText c = true) (hquote : c ≠ '\x22')
    (hbackslash : c ≠ '\x5c') : Decodes [c] [c] := by
  intro front
  simp [step, htext, hquote, hbackslash]

theorem decodes_shortEscape {c d : Char} (h : shortEscape c = some d) :
    Decodes ['\x5c', c] [d] := by
  intro front
  have hu : c ≠ 'u' := by
    rintro rfl
    cases h
  have hU : c ≠ 'U' := by
    rintro rfl
    cases h
  simp [step, hu, hU, h]

theorem decodes_unicode {a b c d : Char} {i j k l : Nat} {e : Char} (ha : hexValue a = some i)
    (hb : hexValue b = some j) (hc : hexValue c = some k) (hd : hexValue d = some l)
    (he : scalar (16 * (16 * (16 * i + j) + k) + l) = some e) :
    Decodes ['\x5c', 'u', a, b, c, d] [e] := by
  intro front
  simp [step, ha, hb, hc, hd, he]

/-- A text without quotes and backslashes that the machine gets through is content as it is. -/
theorem run_basic_of_plain {cs front : List Char} {r : Result Char}
    (h : run id (.basic front) cs = some r) (hplain : ∀ c ∈ cs, c ≠ '\x22' ∧ c ≠ '\x5c') :
    r = ([], .basic (front ++ cs)) := by
  induction cs generalizing front r with
  | nil =>
    rw [run_nil, Option.some.injEq] at h
    simp [← h]
  | cons c cs ih =>
    have hc := hplain c List.mem_cons_self
    by_cases htext : isText c = true
    · simp only [run_cons, step, hc.1, hc.2, htext, if_true, if_false, Option.bind_some,
        Option.map_eq_some_iff] at h
      obtain ⟨s, hs, rfl⟩ := h
      obtain rfl := ih hs fun d hd => hplain d (List.mem_cons_of_mem _ hd)
      simp
    · simp [step, hc, htext] at h

/-! ### Templates -/

inductive Piece (η : Type) where
  | lit (c : Char)
  | hole (name : η)
deriving DecidableEq, Repr

section Templates

variable {η : Type}

def Piece.fill (f : η → List Char) : Piece η → List Char
  | .lit c => [c]
  | .hole name => f name

def fill (f : η → List Char) (ps : List (Piece η)) : List Char := ps.flatMap (Piece.fill f)

def Token.fill (f : η → List Char) : Token (Piece η) → Token Char
  | .space c => .space c
  | .newline => .newline
  | .comment text => .comment text
  | .punct c => .punct c
  | .word chars => .word chars
  | .basic content => .basic (TomlLexer.fill f content)
  | .literal content => .literal content
  | .multi raw content => .multi raw content

def Mode.fill (f : η → List Char) : Mode (Piece η) → Mode Char
  | .between => .between
  | .carriage => .carriage
  | .comment text => .comment text
  | .word chars => .word chars
  | .basic content => .basic (TomlLexer.fill f content)
  | .escape content => .escape (TomlLexer.fill f content)
  | .unicode content left value => .unicode (TomlLexer.fill f content) left value
  | .closed content => .closed (TomlLexer.fill f content)
  | .literal content => .literal content
  | .literalClosed content => .literalClosed content
  | .multiStart raw => .multiStart raw
  | .multi raw content quotes => .multi raw content quotes
  | .multiCarriage raw content => .multiCarriage raw content
  | .multiEscape content => .multiEscape content
  | .multiUnicode content left value => .multiUnicode content left value
  | .multiTrim content broken => .multiTrim content broken
  | .multiTrimCarriage content => .multiTrimCarriage content
  | .multiEnd => .multiEnd

/-- A hole is read as content, and only inside a single-line basic string. -/
def feed : Mode (Piece η) → Piece η → Option (Result (Piece η))
  | m, .lit c => step .lit m c
  | .basic content, .hole name => some ([], .basic (content ++ [.hole name]))
  | _, .hole _ => none

def runTemplate : Mode (Piece η) → List (Piece η) → Option (Result (Piece η))
  | m, [] => some ([], m)
  | m, p :: ps => (feed m p).bind fun r => (runTemplate r.2 ps).map fun s => (r.1 ++ s.1, s.2)

/-- The tokens of a template; `none` if it is not lexically valid or has a hole elsewhere. -/
def lexTemplate (ps : List (Piece η)) : Option (List (Token (Piece η))) :=
  (runTemplate .between ps).bind fun r => (finish r.2).map (r.1 ++ ·)

def Result.fill (f : η → List Char) (r : Result (Piece η)) : Result Char :=
  (r.1.map (Token.fill f), r.2.fill f)

@[simp] theorem fill_nil (f : η → List Char) : fill f [] = [] := rfl

@[simp] theorem fill_cons (f : η → List Char) (p : Piece η) (ps : List (Piece η)) :
    fill f (p :: ps) = p.fill f ++ fill f ps := rfl

@[simp] theorem fill_append (f : η → List Char) (ps qs : List (Piece η)) :
    fill f (ps ++ qs) = fill f ps ++ fill f qs := List.flatMap_append

@[simp] theorem Piece.fill_lit (f : η → List Char) (c : Char) : (Piece.lit c).fill f = [c] := rfl

@[simp] theorem Piece.fill_hole (f : η → List Char) (name : η) :
    (Piece.hole name).fill f = f name := rfl

@[simp] theorem ite_fill (f : η → List Char) (p : Prop) [Decidable p]
    (x y : Option (Result (Piece η))) :
    (if p then x else y).map (Result.fill f) =
      if p then x.map (Result.fill f) else y.map (Result.fill f) :=
  apply_ite (Option.map (Result.fill f)) p x y

@[simp] theorem outside_fill (f : η → List Char) (c : Char) :
    (outside c).map (Result.fill f) = outside c := by
  simp only [outside]
  repeat' split
  all_goals rfl

@[simp] theorem endBefore_fill (f : η → List Char) (token : Token (Piece η)) (c : Char) :
    (endBefore token c).map (Result.fill f) = endBefore (token.fill f) c := by
  rw [endBefore, endBefore, ← outside_fill f c]
  cases outside c <;> rfl

@[simp] theorem behindString_fill (f : η → List Char) (token : Token (Piece η)) (c : Char) :
    (behindString token c).map (Result.fill f) = behindString (token.fill f) c := by
  rw [behindString, behindString]
  split
  · rfl
  · exact endBefore_fill f token c

@[simp] theorem inMulti_fill (f : η → List Char) (raw : Bool) (content : List Char) (c : Char) :
    (inMulti raw content c).map (Result.fill f) = inMulti raw content c := by
  simp only [inMulti]
  repeat' split
  all_goals rfl

/-- Filling commutes with a step, except that a string whose holes are all filled with nothing
must not be followed by a quote: the quotes would open a multi-line string. -/
theorem step_fill (f : η → List Char) (m : Mode (Piece η)) (c : Char)
    (hclosed : ∀ content, m = .closed content → c = '\x22' → fill f content = [] →
      content = []) :
    (step .lit m c).map (Result.fill f) = step id (m.fill f) c := by
  -- in each mode the choice depends on the character, which filling does not change
  cases m with
  | closed content =>
    simp only [step, Mode.fill]
    by_cases hc : c = '\x22'
    · have hempty : fill f content = [] ↔ content = [] :=
        ⟨hclosed content rfl hc, fun h => by rw [h, fill_nil]⟩
      by_cases hcontent : content = []
      · simp [hc, hcontent, Result.fill, Mode.fill]
      · simp [hc, hcontent, hempty, behindString]
    · simp only [hc, false_and, if_false]
      exact behindString_fill f _ c
  | escape content =>
    cases hshort : shortEscape c with
    | none => simp [step, Mode.fill, Result.fill, hshort]
    | some d => simp [step, Mode.fill, Result.fill, hshort]
  | unicode content left value =>
    cases hhex : hexValue c with
    | none => simp [step, Mode.fill, hhex]
    | some d =>
      cases hscalar : scalar (16 * value + d) with
      | none => simp [step, Mode.fill, Result.fill, hhex, hscalar]
      | some e => simp [step, Mode.fill, Result.fill, hhex, hscalar]
  | multiEscape content =>
    cases hshort : shortEscape c with
    | none => simp [step, Mode.fill, Result.fill, hshort]
    | some d => simp [step, Mode.fill, Result.fill, hshort]
  | multiUnicode content left value =>
    cases hhex : hexValue c with
    | none => simp [step, Mode.fill, hhex]
    | some d =>
      cases hscalar : scalar (16 * value + d) with
      | none => simp [step, Mode.fill, Result.fill, hhex, hscalar]
      | some e => simp [step, Mode.fill, Result.fill, hhex, hscalar]
  | between | carriage | comment | word | basic | literal | literalClosed | multiStart | multi
  | multiCarriage | multiTrim | multiTrimCarriage | multiEnd =>
    simp [step, Mode.fill, Result.fill, Token.fill, multiToken]

theorem step_fill_of_some {f : η → List Char} {m : Mode (Piece η)} {c : Char}
    {r : Result (Piece η)} (h : step .lit m c = some r) :
    step id (m.fill f) c = some (r.fill f) := by
  rw [← step_fill, h]
  · rfl
  · rintro content rfl rfl _
    by_contra hne
    simp [step, hne, behindString] at h

theorem finish_fill (f : η → List Char) (m : Mode (Piece η)) :
    (finish m).map (List.map (Token.fill f)) = finish (m.fill f) := by
  cases m with
  | multi raw content quotes =>
    simp only [finish, Mode.fill]
    split <;> rfl
  | _ => rfl

/-- Where each hole is filled with a text that is read as some content, the template's run says how
the filled text is read. -/
theorem run_fill {f g : η → List Char} {ps : List (Piece η)} {m : Mode (Piece η)}
    {r : Result (Piece η)} (h : runTemplate m ps = some r)
    (hholes : ∀ name, .hole name ∈ ps → Decodes (g name) (f name)) :
    run id (m.fill f) (fill g ps) = some (r.fill f) := by
  induction ps generalizing m r with
  | nil =>
    rw [runTemplate, Option.some.injEq] at h
    simp [← h, Result.fill]
  | cons p ps ih =>
    rw [runTemplate, Option.bind_eq_some_iff] at h
    obtain ⟨s, hs, h⟩ := h
    obtain ⟨t, ht, rfl⟩ := Option.map_eq_some_iff.mp h
    have hrest := ih ht fun name hname => hholes name (List.mem_cons_of_mem _ hname)
    cases p with
    | lit c =>
      rw [fill_cons, Piece.fill_lit, List.singleton_append, run_cons,
        step_fill_of_some (f := f) hs]
      simp only [Result.fill, Option.bind_some] at hrest ⊢
      simp [hrest]
    | hole name =>
      cases m <;> simp only [feed, reduceCtorEq, Option.some.injEq] at hs
      next content =>
        subst hs
        have hname := hholes name List.mem_cons_self (fill f content)
        simp only [Mode.fill, fill_append, fill_cons, Piece.fill_hole, fill_nil,
          List.append_nil] at hrest
        rw [fill_cons, Piece.fill_hole, run_append, Mode.fill, hname, Option.bind_some, hrest]
        simp [Result.fill]

def Mode.InBasic {α : Type} : Mode α → Prop
  | .basic _ | .escape _ | .unicode _ _ _ => True
  | _ => False

structure HoleText (cs : List Char) : Prop where
  plain : ∀ c ∈ cs, c ≠ '\x22' ∧ c ≠ '\x5c'
  head : ∃ c rest, cs = c :: rest ∧ shortEscape c = none ∧ c ≠ 'u' ∧ c ≠ 'U' ∧ hexValue c = none

theorem HoleText.eq_basic {cs : List Char} (h : HoleText cs) {m : Mode (Piece η)}
    {f : η → List Char} (hm : (m.fill f).InBasic) {r : Result Char}
    (hrun : run id (m.fill f) cs = some r) : ∃ content, m = .basic content := by
  obtain ⟨c, rest, rfl, hshort, hu, hU, hhex⟩ := h.head
  cases m with
  | basic content => exact ⟨content, rfl⟩
  | escape content => simp [Mode.fill, step, hshort, hu, hU] at hrun
  | unicode content left value => simp [Mode.fill, step, hhex] at hrun
  | _ => cases hm

theorem eq_nil_of_fill_eq_nil {f : η → List Char} (hf : ∀ name, f name ≠ []) {ps : List (Piece η)}
    (h : fill f ps = []) : ps = [] := by
  cases ps with
  | nil => rfl
  | cons p ps =>
    rw [fill_cons, List.append_eq_nil_iff] at h
    cases p with
    | lit c => cases h.1
    | hole name => exact absurd h.1 (hf name)

def HolesInBasic (g : η → List Char) (m : Mode (Piece η)) (ps : List (Piece η)) : Prop :=
  ∀ front name back, ps = front ++ .hole name :: back → ∃ s,
    run id (m.fill g) (fill g front) = some s ∧ s.2.InBasic

theorem HolesInBasic.tail {g : η → List Char} {m m' : Mode (Piece η)} {p : Piece η}
    {ps : List (Piece η)} {tokens : List (Token Char)} (h : HolesInBasic g m (p :: ps))
    (hp : run id (m.fill g) (p.fill g) = some (tokens, m'.fill g)) : HolesInBasic g m' ps := by
  intro front name back hps
  obtain ⟨s, hs, hbasic⟩ := h (p :: front) name back (by rw [hps, List.cons_append])
  rw [fill_cons, run_append, hp, Option.bind_some, Option.map_eq_some_iff] at hs
  obtain ⟨t, ht, rfl⟩ := hs
  exact ⟨t, ht, hbasic⟩

/-- A filled text that the machine gets through, with every hole inside a single-line basic string,
comes from a template that it gets through. -/
theorem runTemplate_of_run {g : η → List Char} (hg : ∀ name, g name ≠ []) {ps : List (Piece η)}
    {m : Mode (Piece η)} {r : Result Char} (h : run id (m.fill g) (fill g ps) = some r)
    (hinside : HolesInBasic g m ps) (hholes : ∀ name, .hole name ∈ ps → HoleText (g name)) :
    ∃ t, runTemplate m ps = some t ∧ r = t.fill g := by
  induction ps generalizing m r with
  | nil =>
    rw [fill_nil, run_nil, Option.some.injEq] at h
    exact ⟨([], m), rfl, h.symm⟩
  | cons p ps ih =>
    have htail := fun name hname => hholes name (List.mem_cons_of_mem p hname)
    rw [fill_cons, run_append, Option.bind_eq_some_iff] at h
    obtain ⟨s, hs, h⟩ := h
    obtain ⟨u, hu, rfl⟩ := Option.map_eq_some_iff.mp h
    cases p with
    | lit c =>
      have hstep := step_fill g m c fun _ _ _ hnil => eq_nil_of_fill_eq_nil hg hnil
      cases hc : step .lit m c with
      | none => simp [← hstep, hc] at hs
      | some t =>
        obtain rfl : t.fill g = s := by simpa [← hstep, hc] using hs
        obtain ⟨v, hv, rfl⟩ := ih hu (hinside.tail hs) htail
        exact ⟨(t.1 ++ v.1, v.2), by simp [runTemplate, feed, hc, hv], by simp [Result.fill]⟩
    | hole name =>
      -- the text of a hole is no rest of an escape, so the machine is between characters
      obtain ⟨s', hs', hbasic⟩ := hinside [] name ps rfl
      rw [fill_nil, run_nil, Option.some.injEq] at hs'
      subst hs'
      have hname := hholes name List.mem_cons_self
      obtain ⟨content, rfl⟩ := hname.eq_basic hbasic hs
      obtain rfl := run_basic_of_plain hs hname.plain
      have hmode : Mode.basic (fill g content ++ g name) =
          (Mode.basic (content ++ [.hole name])).fill g := by
        simp [Mode.fill]
      rw [Piece.fill_hole, hmode] at hs hu
      obtain ⟨v, hv, rfl⟩ := ih hu (hinside.tail hs) htail
      exact ⟨v, by simp [runTemplate, feed, hv], by simp [Result.fill]⟩

/-- The tokens of a text with filled holes are the tokens of the template, filled. -/
theorem lex_fill {f g : η → List Char} {ps : List (Piece η)} {tokens : List (Token (Piece η))}
    (h : lexTemplate ps = some tokens)
    (hholes : ∀ name, .hole name ∈ ps → Decodes (g name) (f name)) :
    lex (fill g ps) = some (tokens.map (Token.fill f)) := by
  rw [lexTemplate, Option.bind_eq_some_iff] at h
  obtain ⟨r, hr, h⟩ := h
  obtain ⟨last, hlast, rfl⟩ := Option.map_eq_some_iff.mp h
  have hrun : run id .between (fill g ps) = some (r.fill f) := run_fill (m := .between) hr hholes
  have hfinish := finish_fill f r.2
  rw [hlast, Option.map_some] at hfinish
  simp [lex, hrun, Result.fill, ← hfinish]

theorem lexTemplate_of_lex {g : η → List Char} (hg : ∀ name, g name ≠ []) {ps : List (Piece η)}
    {tokens : List (Token Char)} (h : lex (fill g ps) = some tokens)
    (hinside : HolesInBasic g .between ps)
    (hholes : ∀ name, .hole name ∈ ps → HoleText (g name)) :
    ∃ template, lexTemplate ps = some template ∧ tokens = template.map (Token.fill g) := by
  rw [lex, Option.bind_eq_some_iff] at h
  obtain ⟨r, hr, hfinish⟩ := h
  obtain ⟨t, ht, rfl⟩ := @runTemplate_of_run _ _ hg _ .between _ hr hinside hholes
  obtain ⟨last, hlast, rfl⟩ := Option.map_eq_some_iff.mp hfinish
  simp only [Result.fill, ← finish_fill] at hlast
  obtain ⟨own, hown, rfl⟩ := Option.map_eq_some_iff.mp hlast
  exact ⟨t.1 ++ own, by simp [lexTemplate, ht, hown], by simp [Result.fill]⟩

end Templates

end TomlLexer
