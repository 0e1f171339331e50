import EmergencyDispatch.Library.Json
import Mathlib.Data.List.DropRight

/-!
# Writing JSON piece by piece

`StandsFor text tokens p` says that, whatever follows, the automaton reads these
tokens off the text and is between two tokens again exactly when `p` holds.  It
composes: a program that writes a text in pieces writes a document exactly when
the conditions of all the pieces hold.  Punctuation and numbers have none; a
string that is copied between quotation marks, as it is, stands for itself
exactly when no character of it would have to be escaped.
-/

namespace Json

/-- The state after a part of a text, and the tokens in it. -/
def scan : State → List Char → Option (State × List Token)
  | st, [] => some (st, [])
  | st, c :: text =>
      (st.step c).bind fun (st', ts) => (scan st' text).map fun (st'', us) => (st'', ts ++ us)

variable {st st' : State} {ts us : List Token} {text rest : List Char} {p q : Prop}

/-- The first character of a text that is scanned is one step. -/
theorem scan_cons_cases {c : Char} (h : scan st (c :: text) = some (st', ts)) :
    ∃ st₁ ts₁ ts₂, st.step c = some (st₁, ts₁) ∧ scan st₁ text = some (st', ts₂) ∧
      ts = ts₁ ++ ts₂ := by
  rw [scan] at h
  obtain ⟨⟨st₁, ts₁⟩, hstep, hrest⟩ := Option.bind_eq_some_iff.mp h
  obtain ⟨⟨st₂, ts₂⟩, hscan, heq⟩ := Option.map_eq_some_iff.mp hrest
  obtain ⟨rfl, rfl⟩ := Prod.mk.inj heq
  exact ⟨st₁, ts₁, ts₂, hstep, hscan, rfl⟩

theorem scan_append (h : scan st text = some (st', ts)) (rest : List Char) :
    scan st (text ++ rest) = (scan st' rest).map fun (st'', us) => (st'', ts ++ us) := by
  induction text generalizing st ts with
  | nil =>
      obtain ⟨rfl, rfl⟩ : st = st' ∧ [] = ts := by simpa [scan] using h
      rw [List.nil_append]
      cases scan st rest <;> rfl
  | cons c text ih =>
      obtain ⟨st₁, ts₁, ts₂, hstep, hscan, rfl⟩ := scan_cons_cases h
      rw [List.cons_append, scan, hstep]
      simp only [Option.bind_some, ih hscan, Option.map_map]
      cases scan st' rest <;> simp

theorem tokensFrom_append (h : scan st text = some (st', ts)) (rest : List Char) :
    tokensFrom st (text ++ rest) = (tokensFrom st' rest).map (ts ++ ·) := by
  induction text generalizing st ts with
  | nil =>
      obtain ⟨rfl, rfl⟩ : st = st' ∧ [] = ts := by simpa [scan] using h
      simp
  | cons c text ih =>
      obtain ⟨st₁, ts₁, ts₂, hstep, hscan, rfl⟩ := scan_cons_cases h
      rw [List.cons_append, tokensFrom, hstep]
      simp only [Option.bind_some, ih hscan, Option.map_map]
      cases tokensFrom st' rest <;> simp

/-! ## Texts that stand for tokens -/

/-- Whatever follows, the text stands for the tokens exactly when `p` holds. -/
def StandsFor (text : List Char) (ts : List Token) (p : Prop) : Prop :=
  ∀ rest us, tokenize (text ++ rest) = some (ts ++ us) ↔ p ∧ tokenize rest = some us

namespace StandsFor

theorem append {text' : List Char} {ts' : List Token} (h : StandsFor text ts p)
    (h' : StandsFor text' ts' q) : StandsFor (text ++ text') (ts ++ ts') (p ∧ q) := by
  intro rest us
  rw [List.append_assoc, List.append_assoc, h, h', and_assoc]

/-- A text that is scanned from one gap between tokens to another has no condition. -/
theorem of_scan (h : scan .between text = some (.between, ts)) : StandsFor text ts True := by
  intro rest us
  rw [tokenize, tokensFrom_append h, true_and, tokenize]
  simp

theorem cons_scan {text' : List Char} {ts' : List Token}
    (h : scan .between text = some (.between, ts)) (h' : StandsFor text' ts' p) :
    StandsFor (text ++ text') (ts ++ ts') p := by
  simpa using (of_scan h).append h'

theorem nil : StandsFor [] [] True := of_scan rfl

theorem congr (h : StandsFor text ts p) (hts : ts = us) (hpq : p ↔ q) : StandsFor text us q := by
  subst hts
  intro rest us
  rw [h, hpq]

theorem tokenize_iff (h : StandsFor text ts p) : tokenize text = some ts ↔ p := by
  have hend : tokenize [] = some [] := rfl
  simpa [hend] using h [] []

/-- The items of a list behind the first one, each with a separator in front. -/
theorem flatMap {α : Type*} {write : α → List Char} {tokens : α → List Token} {p : α → Prop}
    (h : ∀ a, StandsFor (write a) (tokens a) (p a)) (items : List α) :
    StandsFor (items.flatMap write) (items.flatMap tokens) (∀ a ∈ items, p a) := by
  induction items with
  | nil => simpa using nil
  | cons a items ih =>
      rw [List.flatMap_cons, List.flatMap_cons, List.forall_mem_cons]
      exact (h a).append ih

end StandsFor

/-! ## Numbers -/

/-- Decimal notation. -/
def printInt : ℤ → List Char
  | .ofNat n => Nat.toDigits 10 n
  | .negSucc n => '-' :: Nat.toDigits 10 (n + 1)

/-- The character does not go on with a number. -/
def endsNumber (c : Char) : Bool := !c.isDigit && c != '.' && c != 'e' && c != 'E'

theorem digitValue_digitChar {d : ℕ} (h : d < 10) : digitValue d.digitChar = d := by
  have hall : ∀ d < 10, digitValue d.digitChar = d := by decide
  exact hall d h

theorem scan_toDigits {negative : Bool}
    (hst : ∀ d, 0 < d → d < 10 →
      st.step d.digitChar = some (.number (.digits negative d), []))
    {n : ℕ} (hn : 0 < n) :
    scan st (Nat.toDigits 10 n) = some (.number (.digits negative n), []) := by
  induction n using Nat.strongRecOn with
  | ind n ih =>
      by_cases hlt : n < 10
      · rw [Nat.toDigits_of_lt_base hlt, scan, hst n hn hlt]
        rfl
      · have hle : 10 ≤ n := Nat.le_of_not_lt hlt
        have hinit := ih (n / 10) (by omega) (by omega)
        have hdigit : n % 10 < 10 := Nat.mod_lt n (by decide)
        have hnext : Numeral.next (.digits negative (n / 10)) (n % 10).digitChar =
            some (.digits negative n) := by
          rw [Numeral.next, Nat.isDigit_digitChar, decide_eq_true hdigit, if_pos rfl,
            digitValue_digitChar hdigit, Nat.div_add_mod]
        rw [Nat.toDigits_of_base_le (by decide) hle, scan_append hinit, scan]
        simp [State.step, hnext, scan]

/-- The number as it stands when all of it has been read. -/
theorem exists_scan_printInt (n : ℤ) :
    ∃ numeral, scan .between (printInt n) = some (.number numeral, []) ∧
      numeral.finish = some (.number n 0) ∧
      ∀ c, endsNumber c = true → numeral.next c = none := by
  have hdigits : ∀ negative m, ∀ c, endsNumber c = true →
      Numeral.next (.digits negative m) c = none := by
    intro negative m c hc
    simp only [endsNumber, Bool.and_eq_true, Bool.not_eq_true', bne_iff_ne, ne_eq] at hc
    simp [Numeral.next, Numeral.endInteger, Numeral.startExponent, hc]
  match n with
  | .ofNat 0 =>
      refine ⟨.zero false, rfl, rfl, fun c hc => ?_⟩
      simp only [endsNumber, Bool.and_eq_true, Bool.not_eq_true', bne_iff_ne, ne_eq] at hc
      simp [Numeral.next, Numeral.endInteger, Numeral.startExponent, hc]
  | .ofNat (m + 1) =>
      refine ⟨.digits false (m + 1), ?_, rfl, hdigits _ _⟩
      refine scan_toDigits (fun d hpos hlt => ?_) (Nat.succ_pos m)
      have hall : ∀ d < 10, 0 < d → State.step .between d.digitChar =
          some (.number (.digits false d), []) := by decide
      exact hall d hlt hpos
  | .negSucc m =>
      refine ⟨.digits true (m + 1), ?_, rfl, hdigits _ _⟩
      have hall : ∀ d < 10, 0 < d → State.step (.number .sign) d.digitChar =
          some (.number (.digits true d), []) := by decide
      have hscan := scan_toDigits (fun d hpos hlt => hall d hlt hpos) (Nat.succ_pos m)
      rw [printInt, scan]
      show (scan (.number .sign) (Nat.toDigits 10 (m + 1))).map _ = _
      rw [hscan]
      rfl

/-- A character that does not go on with a number ends it and is read after it. -/
theorem tokensFrom_number_end {numeral : Numeral} {token : Token} {c : Char}
    (hfinish : numeral.finish = some token) (hnext : numeral.next c = none) (rest : List Char) :
    tokensFrom (.number numeral) (c :: rest) = (tokenize (c :: rest)).map (token :: ·) := by
  have hstep : (State.number numeral).step c =
      (start c).map fun (st, ts) => (st, token :: ts) := by
    simp [State.step, hnext, hfinish]
  have hstart : State.step .between c = start c := rfl
  rw [tokensFrom, tokenize, tokensFrom, hstep, hstart]
  cases start c with
  | none => rfl
  | some next => cases htail : tokensFrom next.1 rest <;> simp [htail]

/-- A number in front of what ends it. -/
theorem StandsFor.printInt {punctuation : List Char}
    (hends : punctuation.head?.any endsNumber = true)
    (h : StandsFor (punctuation ++ text) ts p) (n : ℤ) :
    StandsFor (printInt n ++ (punctuation ++ text)) (.number n 0 :: ts) p := by
  obtain ⟨numeral, hscan, hfinish, hnumeral⟩ := exists_scan_printInt n
  obtain ⟨c, hhead, hc⟩ := (Option.any_eq_true _ _).mp hends
  obtain ⟨punctuation, rfl⟩ := List.head?_eq_some_iff.mp hhead
  intro rest us
  rw [List.append_assoc, tokenize, tokensFrom_append hscan, ← h rest us, List.cons_append,
    List.cons_append, tokensFrom_number_end hfinish (hnumeral c hc)]
  simp

/-! ## Strings that are copied -/

/-- Every character of the string stands for itself. -/
def Unescaped (s : List Char) : Prop := ∀ c ∈ s, isUnescaped c = true

theorem scan_unescaped {s : List Char} (h : Unescaped s) (read : List Char) :
    scan (.string read) s = some (.string (read ++ s), []) := by
  induction s generalizing read with
  | nil => simp [scan]
  | cons c s ih =>
      obtain ⟨hc, hs⟩ := List.forall_mem_cons.mp h
      have hstep : State.step (.string read) c = some (.string (read ++ [c]), []) := by
        have hplain := hc
        simp only [isUnescaped, Bool.and_eq_true, bne_iff_ne, ne_eq] at hplain
        simp [State.step, hc, hplain.1.1, hplain.1.2]
      rw [scan, hstep]
      simp [ih hs]

theorem tokensFrom_string_close (read rest : List Char) :
    tokensFrom (.string read) ('"' :: rest) = (tokenize rest).map (.string read :: ·) := by
  rw [tokensFrom]
  rfl

/-- The digits of `\u` add a character at most. -/
theorem unicode_cases {read : List Char} {high : Option ℕ} {code : ℕ}
    (h : unicode read high code = some st) :
    (∃ d, st = .string (read ++ [d])) ∨ ∃ half, st = .pair read half := by
  unfold unicode at h
  split at h
  · split at h
    · exact .inr ⟨code, (Option.some.inj h).symm⟩
    · split at h
      · cases h
      · exact .inl ⟨_, (Option.some.inj h).symm⟩
  · split at h
    · exact .inl ⟨_, (Option.some.inj h).symm⟩
    · cases h

/-- In a string, behind an escape: fewer characters have been read than there were. -/
def Lagging (passed : List Char) : State → Prop
  | .string read => read.length < passed.length
  | .escape read => read.length < passed.length ∧ passed.getLast? = some '\\'
  | .hex read _ _ _ => read.length < passed.length
  | .pair read _ => read.length < passed.length
  | .pairEscape read _ => read.length < passed.length
  | _ => False

/-- One character more: the text cannot go on, the string is closed, or it lags behind. -/
theorem Lagging.step {passed : List Char} (h : Lagging passed st) (c : Char) :
    st.step c = none ∨ (∃ read, st = .string read ∧ c = '"') ∨
      ∃ st', st.step c = some (st', []) ∧ Lagging (passed ++ [c]) st' := by
  have hkept : ∀ read : List Char, read.length < passed.length →
      read.length < (passed ++ [c]).length := by
    intro read hlt
    rw [List.length_append]
    exact Nat.lt_add_right _ hlt
  have hread : ∀ (read : List Char) (d : Char), read.length < passed.length →
      Lagging (passed ++ [c]) (.string (read ++ [d])) := by
    intro read d hlt
    simpa [Lagging] using hlt
  cases st with
  | between => exact h.elim
  | literal rest token => exact h.elim
  | number n => exact h.elim
  -- a plain character is read at once, an escape is read later
  | string read =>
      by_cases hquote : c = '"'
      · exact .inr (.inl ⟨read, rfl, hquote⟩)
      by_cases hescape : c = '\\'
      · exact .inr (.inr ⟨.escape read, by simp [State.step, hescape], hkept read h,
          by simp [hescape]⟩)
      by_cases hplain : isUnescaped c = true
      · exact .inr (.inr ⟨_, by simp [State.step, hquote, hescape, hplain], hread read c h⟩)
      · exact .inl (by simp [State.step, hquote, hescape, hplain])
  | escape read =>
      by_cases hu : c = 'u'
      · exact .inr (.inr ⟨.hex read none 0 0, by simp [State.step, hu], hkept read h.1⟩)
      cases hescaped : escaped c with
      | none => exact .inl (by simp [State.step, hu, hescaped])
      | some d =>
          exact .inr (.inr ⟨_, by simp [State.step, hu, hescaped], hread read d h.1⟩)
  | hex read high digits code =>
      cases hvalue : hexValue c with
      | none => exact .inl (by simp [State.step, hvalue])
      | some d =>
          by_cases hdigits : digits < 3
          · exact .inr (.inr ⟨.hex read high (digits + 1) (16 * code + d),
              by simp [State.step, hvalue, hdigits], hkept read h⟩)
          · cases hunicode : unicode read high (16 * code + d) with
            | none => exact .inl (by simp [State.step, hvalue, hdigits, hunicode])
            | some st' =>
                refine .inr (.inr ⟨st', by simp [State.step, hvalue, hdigits, hunicode], ?_⟩)
                -- a pair of halves makes one character
                rcases unicode_cases hunicode with ⟨e, rfl⟩ | ⟨half, rfl⟩
                · exact hread read e h
                · exact hkept read h
  | pair read high =>
      by_cases hescape : c = '\\'
      · exact .inr (.inr ⟨.pairEscape read high, by simp [State.step, hescape], hkept read h⟩)
      · exact .inl (by simp [State.step, hescape])
  | pairEscape read high =>
      by_cases hu : c = 'u'
      · exact .inr (.inr ⟨.hex read (some high) 0 0, by simp [State.step, hu], hkept read h⟩)
      · exact .inl (by simp [State.step, hu])

theorem eq_of_string_close {read name rest : List Char}
    (h : tokensFrom (.string read) ('"' :: rest) = some (.string name :: us)) : read = name := by
  rw [tokensFrom_string_close] at h
  obtain ⟨ts, -, hcons⟩ := Option.map_eq_some_iff.mp h
  simpa using (List.cons.inj hcons).1

/-- A string that lags behind is not the one it was copied from: it is shorter, or the last
character of the copy has escaped the quotation mark. -/
theorem Lagging.ne_string {passed left name gap more : List Char} (h : Lagging passed st)
    (hname : name = passed ++ left) (hgap : Unescaped gap) (hne : gap ≠ []) :
    tokensFrom st (left ++ '"' :: (gap ++ '"' :: more)) ≠ some (.string name :: us) := by
  induction left generalizing passed st with
  | nil =>
      rw [List.nil_append]
      rw [List.append_nil] at hname
      subst hname
      cases st with
      | between => exact h.elim
      | literal rest token => exact h.elim
      | number n => exact h.elim
      | string read =>
          intro hsome
          have hlt : read.length < name.length := h
          rw [eq_of_string_close hsome] at hlt
          exact lt_irrefl _ hlt
      | escape read =>
          -- the copy ends in a backslash, and the string that is read does not
          intro hsome
          have hstep : State.step (.escape read) '"' = some (.string (read ++ ['"']), []) := rfl
          rw [tokensFrom, hstep, Option.bind_some] at hsome
          simp only [tokensFrom_append (scan_unescaped hgap _), List.nil_append,
            Option.map_id'] at hsome
          have hread := eq_of_string_close hsome
          have hlast : name.getLast? = gap.getLast? := by
            rw [← hread, List.getLast?_append_of_ne_nil _ hne]
          have hback : gap.getLast? = some '\\' := hlast ▸ h.2
          have hplain := hgap _ (List.mem_of_getLast? hback)
          exact absurd hplain (by decide)
      | hex read high digits code =>
          have hstep : State.step (.hex read high digits code) '"' = none := rfl
          simp [tokensFrom, hstep]
      | pair read high =>
          have hstep : State.step (.pair read high) '"' = none := rfl
          simp [tokensFrom, hstep]
      | pairEscape read high =>
          have hstep : State.step (.pairEscape read high) '"' = none := rfl
          simp [tokensFrom, hstep]
  | cons c left ih =>
      rcases h.step c with hnone | ⟨read, rfl, rfl⟩ | ⟨st', hstep, hlagging⟩
      · simp [tokensFrom, hnone]
      · intro hsome
        have hlt : read.length < passed.length := h
        rw [eq_of_string_close hsome, hname, List.length_append] at hlt
        omega
      · have hrest := ih hlagging (by simp [hname])
        simpa [tokensFrom, hstep] using hrest

/-- A string that needs escapes is not read back. -/
theorem ne_string_of_escapes {read left name gap more : List Char}
    (hname : name = read ++ left) (hescapes : ¬Unescaped left) (hgap : Unescaped gap)
    (hne : gap ≠ []) :
    tokensFrom (.string read) (left ++ '"' :: (gap ++ '"' :: more)) ≠
      some (.string name :: us) := by
  induction left generalizing read with
  | nil => exact absurd (fun c hc => absurd hc List.not_mem_nil) hescapes
  | cons c left ih =>
      by_cases hplain : isUnescaped c = true
      · have hleft : ¬Unescaped left := fun h =>
          hescapes (List.forall_mem_cons.mpr ⟨hplain, h⟩)
        have hscan : scan (.string read) [c] = some (.string (read ++ [c]), []) :=
          scan_unescaped (List.forall_mem_singleton.mpr hplain) read
        have hrest : tokensFrom (.string (read ++ [c])) (left ++ '"' :: (gap ++ '"' :: more)) ≠
            some (.string name :: us) := ih (by simp [hname]) hleft
        rw [← List.singleton_append, List.append_assoc, tokensFrom_append hscan]
        simpa using hrest
      by_cases hquote : c = '"'
      · subst hquote
        intro hsome
        have hsame := eq_of_string_close hsome
        simp [hname] at hsame
      by_cases hescape : c = '\\'
      · subst hescape
        have hlagging : Lagging (read ++ ['\\']) (.escape read) := ⟨by simp, by simp⟩
        have hrest : tokensFrom (.escape read) (left ++ '"' :: (gap ++ '"' :: more)) ≠
            some (.string name :: us) := hlagging.ne_string (by simp [hname]) hgap hne
        have hstep : State.step (.string read) '\\' = some (.escape read, []) := rfl
        simpa [tokensFrom, hstep] using hrest
      · simp [tokensFrom, State.step, hquote, hescape, hplain]

/-- The punctuation begins with the quotation mark that closes a string, and the next string
begins after a few characters without escapes. -/
def closesString : List Char → Bool
  | '"' :: punctuation =>
      !(punctuation.takeWhile isUnescaped).isEmpty &&
        (punctuation.dropWhile isUnescaped).head? == some '"'
  | _ => false

theorem gap_of_closesString {punctuation : List Char} (h : closesString punctuation = true) :
    ∃ gap more, punctuation = '"' :: (gap ++ '"' :: more) ∧ Unescaped gap ∧ gap ≠ [] := by
  unfold closesString at h
  split at h
  · rename_i punctuation
    simp only [Bool.and_eq_true, Bool.not_eq_true', beq_iff_eq] at h
    obtain ⟨more, hmore⟩ := List.head?_eq_some_iff.mp h.2
    refine ⟨punctuation.takeWhile isUnescaped, more, ?_, ?_, ?_⟩
    · rw [← hmore, List.takeWhile_append_dropWhile]
    · exact fun c hc => List.mem_takeWhile_imp hc
    · simpa using h.1
  · cases h

/-- A string that is copied stands for itself exactly when no character has to be escaped. -/
theorem StandsFor.string {punctuation : List Char} (hcloses : closesString punctuation = true)
    (h : StandsFor (punctuation.tail ++ text) ts p) (name : List Char) :
    StandsFor ('"' :: (name ++ (punctuation ++ text))) (.string name :: ts)
      (Unescaped name ∧ p) := by
  obtain ⟨gap, more, rfl, hgap, hne⟩ := gap_of_closesString hcloses
  intro rest us
  have hopen : ∀ text, tokenize ('"' :: text) = tokensFrom (.string []) text := by
    intro text
    have hstep : State.step .between '"' = some (.string [], []) := rfl
    simp [tokenize, tokensFrom, hstep]
  have htext : '"' :: (name ++ ('"' :: (gap ++ '"' :: more) ++ text)) ++ rest =
      '"' :: (name ++ '"' :: (gap ++ '"' :: (more ++ text ++ rest))) := by simp
  rw [htext, hopen]
  by_cases hplain : Unescaped name
  · rw [tokensFrom_append (scan_unescaped hplain []), tokensFrom_string_close, and_assoc,
      and_iff_right hplain, ← h rest us]
    simp
  · refine iff_of_false ?_ fun hfalse => hplain hfalse.1.1
    exact ne_string_of_escapes (List.nil_append name).symm hplain hgap hne

/-! ## Lists with a separator -/

/-- The items with a separator in front of each but the first. -/
def joined {α : Type*} (separator : List Char) (write : α → List Char) : List α → List Char
  | [] => []
  | a :: items => write a ++ items.flatMap fun b => separator ++ write b

/-- What a loop over the items does that knows by a flag whether it is at the first one. -/
def writeSeparated (separator item : List Char) (state : List Char × Bool) : List Char × Bool :=
  ((if state.2 then state.1 else state.1 ++ separator) ++ item, false)

section lists

variable {α : Type*} {separator : List Char} {write : α → List Char}

theorem foldl_writeSeparated_false (items : List α) (out : List Char) :
    (items.foldl (fun state a => writeSeparated separator (write a) state) (out, false)).1 =
      out ++ items.flatMap fun b => separator ++ write b := by
  induction items generalizing out with
  | nil => simp
  | cons a items ih =>
      rw [List.foldl_cons, writeSeparated, if_neg Bool.false_ne_true, ih, List.flatMap_cons]
      simp

theorem foldl_writeSeparated (items : List α) (out : List Char) :
    (items.foldl (fun state a => writeSeparated separator (write a) state) (out, true)).1 =
      out ++ joined separator write items := by
  cases items with
  | nil => simp [joined]
  | cons a items =>
      rw [List.foldl_cons, writeSeparated, if_pos rfl, foldl_writeSeparated_false, joined]
      simp

/-- Items that stand for values make up the elements of an array. -/
theorem StandsFor.elements {value : α → Value} {p : α → Prop}
    (hseparator : scan .between separator = some (.between, [.comma]))
    (h : ∀ a, StandsFor (write a) (value a).tokens (p a)) (items : List α) :
    StandsFor (joined separator write items) (elementTokens (items.map value))
      (∀ a ∈ items, p a) := by
  cases items with
  | nil => simpa [joined, elementTokens] using StandsFor.nil
  | cons a items =>
      have hmore : moreElements (items.map value) =
          items.flatMap fun b => .comma :: (value b).tokens := by
        induction items with
        | nil => rfl
        | cons b items ih => simp [moreElements, ih]
      rw [joined, List.map_cons, elementTokens, hmore, List.forall_mem_cons]
      exact (h a).append (StandsFor.flatMap (fun b => StandsFor.cons_scan hseparator (h b)) items)

end lists

end Json
