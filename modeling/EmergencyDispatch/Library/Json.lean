import Mathlib.Data.Int.Notation
import Mathlib.Data.List.Basic

/-!
# JSON

The grammar has two levels.  A text is a sequence of tokens, which `tokenize`
reads by an automaton that sees every character once, and the tokens are those
of a value: `Decodes text v` says both.  A value keeps the members of an object
in order and a number as it is written, a mantissa with an exponent of ten.
`tokens_injective` says that the tokens determine the value, so a text decodes
to one value at most.
-/

namespace Json

inductive Token
  | beginArray
  | endArray
  | beginObject
  | endObject
  | colon
  | comma
  | null
  | bool (b : Bool)
  | number (mantissa exponent : ℤ)
  | string (s : List Char)
  deriving DecidableEq

inductive Value
  | null
  | bool (b : Bool)
  | number (mantissa exponent : ℤ)
  | string (s : List Char)
  | array (elements : List Value)
  | object (members : List (List Char × Value))

/-! ## The tokens of a value -/

mutual

def Value.tokens : Value → List Token
  | .null => [.null]
  | .bool b => [.bool b]
  | .number mantissa exponent => [.number mantissa exponent]
  | .string s => [.string s]
  | .array elements => .beginArray :: elementTokens elements ++ [.endArray]
  | .object members => .beginObject :: memberTokens members ++ [.endObject]

def elementTokens : List Value → List Token
  | [] => []
  | v :: elements => v.tokens ++ moreElements elements

/-- The elements that follow another one. -/
def moreElements : List Value → List Token
  | [] => []
  | v :: elements => .comma :: v.tokens ++ moreElements elements

def memberTokens : List (List Char × Value) → List Token
  | [] => []
  | (key, v) :: members => .string key :: .colon :: v.tokens ++ moreMembers members

/-- The members that follow another one. -/
def moreMembers : List (List Char × Value) → List Token
  | [] => []
  | (key, v) :: members =>
      .comma :: .string key :: .colon :: v.tokens ++ moreMembers members

end

theorem Value.tokens_ne_endArray (v : Value) (r s : List Token) :
    v.tokens ++ r ≠ .endArray :: s := by
  cases v <;> simp [Value.tokens]

mutual

/-- A value is read off the tokens in front of any others. -/
theorem Value.tokens_append_inj : ∀ (v w : Value) {r s : List Token},
    v.tokens ++ r = w.tokens ++ s → v = w ∧ r = s
  | .null, w, r, s, h => by cases w <;> simp_all [Value.tokens]
  | .bool b, w, r, s, h => by cases w <;> simp_all [Value.tokens]
  | .number mantissa exponent, w, r, s, h => by cases w <;> simp_all [Value.tokens]
  | .string t, w, r, s, h => by cases w <;> simp_all [Value.tokens]
  | .array elements, w, r, s, h => by
      cases w with
      | array others =>
          simp only [Value.tokens, List.cons_append, List.append_assoc, List.nil_append,
            List.cons.injEq, true_and] at h
          obtain ⟨rfl, rfl⟩ := elementTokens_append_inj elements others h
          exact ⟨rfl, rfl⟩
      | _ => simp [Value.tokens] at h
  | .object members, w, r, s, h => by
      cases w with
      | object others =>
          simp only [Value.tokens, List.cons_append, List.append_assoc, List.nil_append,
            List.cons.injEq, true_and] at h
          obtain ⟨rfl, rfl⟩ := memberTokens_append_inj members others h
          exact ⟨rfl, rfl⟩
      | _ => simp [Value.tokens] at h

theorem elementTokens_append_inj : ∀ (vs ws : List Value) {r s : List Token},
    elementTokens vs ++ .endArray :: r = elementTokens ws ++ .endArray :: s → vs = ws ∧ r = s
  | [], [], r, s, h => by simpa [elementTokens] using h
  | [], w :: ws, r, s, h => by
      rw [elementTokens, elementTokens, List.append_assoc] at h
      exact absurd h.symm (w.tokens_ne_endArray _ _)
  | v :: vs, [], r, s, h => by
      rw [elementTokens, elementTokens, List.append_assoc] at h
      exact absurd h (v.tokens_ne_endArray _ _)
  | v :: vs, w :: ws, r, s, h => by
      rw [elementTokens, elementTokens, List.append_assoc, List.append_assoc] at h
      obtain ⟨rfl, hmore⟩ := Value.tokens_append_inj v w h
      obtain ⟨rfl, rfl⟩ := moreElements_append_inj vs ws hmore
      exact ⟨rfl, rfl⟩

theorem moreElements_append_inj : ∀ (vs ws : List Value) {r s : List Token},
    moreElements vs ++ .endArray :: r = moreElements ws ++ .endArray :: s → vs = ws ∧ r = s
  | [], [], r, s, h => by simpa [moreElements] using h
  | [], w :: ws, r, s, h => by simp [moreElements] at h
  | v :: vs, [], r, s, h => by simp [moreElements] at h
  | v :: vs, w :: ws, r, s, h => by
      simp only [moreElements, List.cons_append, List.append_assoc, List.cons.injEq,
        true_and] at h
      obtain ⟨rfl, hmore⟩ := Value.tokens_append_inj v w h
      obtain ⟨rfl, rfl⟩ := moreElements_append_inj vs ws hmore
      exact ⟨rfl, rfl⟩

theorem memberTokens_append_inj : ∀ (ms ns : List (List Char × Value)) {r s : List Token},
    memberTokens ms ++ .endObject :: r = memberTokens ns ++ .endObject :: s → ms = ns ∧ r = s
  | [], [], r, s, h => by simpa [memberTokens] using h
  | [], (key, w) :: ns, r, s, h => by simp [memberTokens] at h
  | (key, v) :: ms, [], r, s, h => by simp [memberTokens] at h
  | (key, v) :: ms, (key', w) :: ns, r, s, h => by
      simp only [memberTokens, List.cons_append, List.append_assoc, List.cons.injEq,
        Token.string.injEq, true_and] at h
      obtain ⟨rfl, h⟩ := h
      obtain ⟨rfl, hmore⟩ := Value.tokens_append_inj v w h
      obtain ⟨rfl, rfl⟩ := moreMembers_append_inj ms ns hmore
      exact ⟨rfl, rfl⟩

theorem moreMembers_append_inj : ∀ (ms ns : List (List Char × Value)) {r s : List Token},
    moreMembers ms ++ .endObject :: r = moreMembers ns ++ .endObject :: s → ms = ns ∧ r = s
  | [], [], r, s, h => by simpa [moreMembers] using h
  | [], (key, w) :: ns, r, s, h => by simp [moreMembers] at h
  | (key, v) :: ms, [], r, s, h => by simp [moreMembers] at h
  | (key, v) :: ms, (key', w) :: ns, r, s, h => by
      simp only [moreMembers, List.cons_append, List.append_assoc, List.cons.injEq,
        Token.string.injEq, true_and] at h
      obtain ⟨rfl, h⟩ := h
      obtain ⟨rfl, hmore⟩ := Value.tokens_append_inj v w h
      obtain ⟨rfl, rfl⟩ := moreMembers_append_inj ms ns hmore
      exact ⟨rfl, rfl⟩

end

/-- **The tokens determine the value.** -/
theorem tokens_injective {v w : Value} (h : v.tokens = w.tokens) : v = w := by
  have happend : v.tokens ++ [] = w.tokens ++ [] := by rw [h]
  exact (Value.tokens_append_inj v w happend).1

/-! ## The tokens of a text -/

/-- A number that is being read: how far it has come and what it is so far. -/
inductive Numeral
  | sign
  | zero (negative : Bool)
  | digits (negative : Bool) (n : ℕ)
  | point (negative : Bool) (n : ℕ)
  | fraction (negative : Bool) (n places : ℕ)
  | exponentMark (negative : Bool) (n places : ℕ)
  | exponentSign (negative : Bool) (n places : ℕ) (small : Bool)
  | exponent (negative : Bool) (n places : ℕ) (small : Bool) (k : ℕ)
  deriving DecidableEq

/-- A number with its sign. -/
def signed (negative : Bool) (n : ℕ) : ℤ := if negative then -n else n

def digitValue (c : Char) : ℕ := c.toNat - '0'.toNat

namespace Numeral

/-- The character starts the exponent. -/
def startExponent (negative : Bool) (n places : ℕ) (c : Char) : Option Numeral :=
  if c = 'e' ∨ c = 'E' then some (.exponentMark negative n places) else none

/-- The character ends the integer part. -/
def endInteger (negative : Bool) (n : ℕ) (c : Char) : Option Numeral :=
  if c = '.' then some (.point negative n) else startExponent negative n 0 c

/-- One more character of the number, `none` if it does not belong to it. -/
def next : Numeral → Char → Option Numeral
  | .sign, c =>
      if c = '0' then some (.zero true)
      else if c.isDigit then some (.digits true (digitValue c))
      else none
  | .zero negative, c => endInteger negative 0 c
  | .digits negative n, c =>
      if c.isDigit then some (.digits negative (10 * n + digitValue c))
      else endInteger negative n c
  | .point negative n, c =>
      if c.isDigit then some (.fraction negative (10 * n + digitValue c) 1) else none
  | .fraction negative n places, c =>
      if c.isDigit then some (.fraction negative (10 * n + digitValue c) (places + 1))
      else startExponent negative n places c
  | .exponentMark negative n places, c =>
      if c = '+' ∨ c = '-' then some (.exponentSign negative n places (c = '-'))
      else if c.isDigit then some (.exponent negative n places false (digitValue c))
      else none
  | .exponentSign negative n places small, c =>
      if c.isDigit then some (.exponent negative n places small (digitValue c)) else none
  | .exponent negative n places small k, c =>
      if c.isDigit then some (.exponent negative n places small (10 * k + digitValue c)) else none

/-- The number, if it may end here. -/
def finish : Numeral → Option Token
  | .zero negative => some (.number (signed negative 0) 0)
  | .digits negative n => some (.number (signed negative n) 0)
  | .fraction negative n places => some (.number (signed negative n) (-places))
  | .exponent negative n places small k =>
      some (.number (signed negative n) (signed small k - places))
  | _ => none

end Numeral

/-- Where the automaton stands. -/
inductive State
  | between
  /-- In a literal of which this is still to come. -/
  | literal (rest : List Char) (token : Token)
  | number (n : Numeral)
  /-- In a string of which this has been read. -/
  | string (read : List Char)
  /-- After a backslash. -/
  | escape (read : List Char)
  /-- In the digits of `\u`, maybe after the first half of a surrogate pair. -/
  | hex (read : List Char) (high : Option ℕ) (digits code : ℕ)
  /-- The second half of a surrogate pair must follow. -/
  | pair (read : List Char) (high : ℕ)
  | pairEscape (read : List Char) (high : ℕ)
  deriving DecidableEq

def isWhitespace (c : Char) : Bool := c == ' ' || c == '\t' || c == '\n' || c == '\r'

/-- A character that stands for itself in a string. -/
def isUnescaped (c : Char) : Bool := c != '"' && c != '\\' && decide (0x20 ≤ c.toNat)

/-- What a character stands for after a backslash. -/
def escaped : Char → Option Char
  | '"' => some '"'
  | '\\' => some '\\'
  | '/' => some '/'
  | 'b' => some '\x08'
  | 'f' => some '\x0c'
  | 'n' => some '\n'
  | 'r' => some '\r'
  | 't' => some '\t'
  | _ => none

def hexValue (c : Char) : Option ℕ :=
  if c.isDigit then some (digitValue c)
  else if 'a' ≤ c ∧ c ≤ 'f' then some (c.toNat - 'a'.toNat + 10)
  else if 'A' ≤ c ∧ c ≤ 'F' then some (c.toNat - 'A'.toNat + 10)
  else none

/-- After the four digits of `\u`; half of a surrogate pair is no character. -/
def unicode (read : List Char) (high : Option ℕ) (code : ℕ) : Option State :=
  match high with
  | none =>
      if 0xD800 ≤ code ∧ code < 0xDC00 then some (.pair read code)
      else if 0xDC00 ≤ code ∧ code < 0xE000 then none
      else some (.string (read ++ [Char.ofNat code]))
  | some high =>
      if 0xDC00 ≤ code ∧ code < 0xE000 then
        some (.string (read ++
          [Char.ofNat (0x10000 + (high - 0xD800) * 0x400 + (code - 0xDC00))]))
      else none

/-- A character between two tokens. -/
def start (c : Char) : Option (State × List Token) :=
  if isWhitespace c then some (.between, [])
  else if c = '0' then some (.number (.zero false), [])
  else if c.isDigit then some (.number (.digits false (digitValue c)), [])
  else
    match c with
    | '[' => some (.between, [.beginArray])
    | ']' => some (.between, [.endArray])
    | '\x7b' => some (.between, [.beginObject])
    | '\x7d' => some (.between, [.endObject])
    | ':' => some (.between, [.colon])
    | ',' => some (.between, [.comma])
    | '"' => some (.string [], [])
    | '-' => some (.number .sign, [])
    | 'n' => some (.literal ['u', 'l', 'l'] .null, [])
    | 't' => some (.literal ['r', 'u', 'e'] (.bool true), [])
    | 'f' => some (.literal ['a', 'l', 's', 'e'] (.bool false), [])
    | _ => none

/-- One character: the next state and the tokens that are complete, `none` if the text cannot
go on like this. -/
def State.step : State → Char → Option (State × List Token)
  | .between, c => start c
  | .literal [d] token, c => if c = d then some (.between, [token]) else none
  | .literal (d :: rest) token, c => if c = d then some (.literal rest token, []) else none
  | .literal [] _, _ => none
  | .number n, c =>
      match n.next c with
      | some n' => some (.number n', [])
      | none => n.finish.bind fun token => (start c).map fun (st, ts) => (st, token :: ts)
  | .string read, c =>
      if c = '"' then some (.between, [.string read])
      else if c = '\\' then some (.escape read, [])
      else if isUnescaped c then some (.string (read ++ [c]), [])
      else none
  | .escape read, c =>
      if c = 'u' then some (.hex read none 0 0, [])
      else (escaped c).map fun d => (.string (read ++ [d]), [])
  | .hex read high digits code, c =>
      (hexValue c).bind fun d =>
        if digits < 3 then some (.hex read high (digits + 1) (16 * code + d), [])
        else (unicode read high (16 * code + d)).map fun st => (st, [])
  | .pair read high, c => if c = '\\' then some (.pairEscape read high, []) else none
  | .pairEscape read high, c => if c = 'u' then some (.hex read (some high) 0 0, []) else none

/-- The tokens that the end of the text completes. -/
def State.finish : State → Option (List Token)
  | .between => some []
  | .number n => n.finish.map fun token => [token]
  | _ => none

/-- The tokens of a text from a state on. -/
def tokensFrom : State → List Char → Option (List Token)
  | st, [] => st.finish
  | st, c :: text =>
      (st.step c).bind fun (st', ts) => (tokensFrom st' text).map (ts ++ ·)

/-- The tokens of a text. -/
def tokenize (text : List Char) : Option (List Token) := tokensFrom .between text

/-- The text is a JSON document and stands for the value. -/
def Decodes (text : List Char) (v : Value) : Prop := tokenize text = some v.tokens

instance (text : List Char) (v : Value) : Decidable (Decodes text v) :=
  inferInstanceAs (Decidable (tokenize text = some v.tokens))

theorem Decodes.unique {text : List Char} {v w : Value} (hv : Decodes text v)
    (hw : Decodes text w) : v = w :=
  tokens_injective (Option.some.inj (hv.symm.trans hw))

/-- A text that stands for a value stands for no other. -/
theorem decodes_exactly_iff {text : List Char} {v : Value} :
    (∀ w, Decodes text w ↔ w = v) ↔ Decodes text v := by
  constructor
  · intro h
    exact (h v).mpr rfl
  · intro h w
    constructor
    · exact fun hw => hw.unique h
    · rintro rfl
      exact h

/-- White space, escapes, fractions and exponents. -/
example : Decodes " \x7b \"a\\u0041\" : [ -1.50e+2 , true ] \x7d ".toList
    (.object [(['a', 'A'], .array [.number (-150) 0, .bool true])]) := by
  decide +kernel

end Json
