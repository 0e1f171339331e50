import EmergencyDispatch.Library.JsonWriting

/-!
# Objects that a format prints member by member

The names of the members are constants, their values are numbers and strings
that are copied.  The last value is a number: behind it no quotation mark needs
to follow to see that it is complete.
-/

namespace Json

/-- The value of a member: what `%d` prints, or what `\"%s\"` copies. -/
inductive Printed
  | int (n : ℤ)
  | string (s : List Char)

def Printed.text : Printed → List Char
  | .int n => printInt n
  | .string s => '"' :: s ++ ['"']

def Printed.value : Printed → Value
  | .int n => .number n 0
  | .string s => .string s

/-- The value stands for itself. -/
def Printed.Plain : Printed → Prop
  | .int _ => True
  | .string s => Unescaped s

/-- The name of a member and what stands between it and the value. -/
def nameText (name : List Char) : List Char := '"' :: name ++ "\": ".toList

/-- A member with the comma behind it. -/
def memberText (m : List Char × Printed) : List Char := nameText m.1 ++ m.2.text ++ ", ".toList

/-- The object with these members and a number as the last one. -/
def objectText (members : List (List Char × Printed)) (last : List Char × ℤ) : List Char :=
  "\x7b ".toList ++ (members.flatMap memberText ++
    (nameText last.1 ++ (printInt last.2 ++ " \x7d".toList)))

def objectValue (members : List (List Char × Printed)) (last : List Char × ℤ) : Value :=
  .object (members.map (fun m => (m.1, m.2.value)) ++ [(last.1, .number last.2 0)])

variable {ts : List Token} {text : List Char} {p : Prop}

theorem StandsFor.of_eq {text' : List Char} (h : StandsFor text ts p) (heq : text = text') :
    StandsFor text' ts p := heq ▸ h

theorem scan_nameText {name : List Char} (h : Unescaped name) :
    scan .between (nameText name) = some (.between, [.string name, .colon]) := by
  have hopen : State.step .between '"' = some (.string [], []) := rfl
  have hclose : scan (.string name) "\": ".toList = some (.between, [.string name, .colon]) := rfl
  have hname := scan_append (scan_unescaped h []) "\": ".toList
  rw [List.nil_append, hclose] at hname
  rw [nameText, List.cons_append, scan, hopen, Option.bind_some]
  simp only [hname, Option.map_some, List.nil_append]

/-- A value and a comma in front of another member. -/
theorem StandsFor.memberText {name next : List Char} (hname : Unescaped name)
    (value : Printed) (h : StandsFor (nameText next ++ text) ts p) :
    StandsFor (memberText (name, value) ++ (nameText next ++ text))
      (.string name :: .colon :: (value.value.tokens ++ .comma :: ts)) (value.Plain ∧ p) := by
  have hcomma : scan .between ", ".toList = some (.between, [.comma]) := rfl
  have hrest := h.cons_scan hcomma
  delta Json.memberText
  cases value with
  | int n =>
      have hvalue := (hrest.printInt rfl n).cons_scan (scan_nameText hname)
      rw [List.append_assoc, List.append_assoc]
      exact hvalue.congr rfl ((and_iff_right trivial).symm)
  | string s =>
      -- the quotation mark of the next name shows that the string has been closed
      have hclosed : StandsFor ("\", \"".toList.tail ++ (next ++ "\": ".toList ++ text))
          (.comma :: ts) p := by
        simpa [nameText] using hrest
      have hvalue := (hclosed.string rfl s).cons_scan (scan_nameText hname)
      refine (hvalue.congr rfl Iff.rfl).of_eq ?_
      simp [nameText, Printed.text]

/-- The tokens of the members. -/
def printedTokens (members : List (List Char × Printed)) : List Token :=
  members.flatMap fun m => .string m.1 :: .colon :: (m.2.value.tokens ++ [.comma])

theorem StandsFor.flatMap_memberText {members : List (List Char × Printed)} {last : List Char}
    (hnames : ∀ m ∈ members, Unescaped m.1) (h : StandsFor (nameText last ++ text) ts p) :
    StandsFor (members.flatMap Json.memberText ++ (nameText last ++ text))
      (printedTokens members ++ ts) ((∀ m ∈ members, m.2.Plain) ∧ p) := by
  induction members with
  | nil => simpa [printedTokens] using h
  | cons m members ih =>
      obtain ⟨hname, hnames⟩ := List.forall_mem_cons.mp hnames
      -- what follows begins with a name, that of the next member or the last one
      obtain ⟨next, more, hmore⟩ : ∃ next more,
          members.flatMap Json.memberText ++ (nameText last ++ text) = nameText next ++ more := by
        cases members with
        | nil => exact ⟨last, text, rfl⟩
        | cons m members =>
            exact ⟨m.1, m.2.text ++ ", ".toList ++ (members.flatMap Json.memberText ++
              (nameText last ++ text)), by simp [Json.memberText]⟩
      have hrest := ih hnames
      rw [hmore] at hrest
      have hm := StandsFor.memberText hname m.2 hrest
      rw [← hmore] at hm
      refine (hm.congr ?_ ?_).of_eq ?_
      · simp [printedTokens]
      · rw [List.forall_mem_cons, and_assoc]
      · rw [List.flatMap_cons, List.append_assoc]

theorem memberTokens_printed (members : List (List Char × Printed)) (last : List Char × ℤ) :
    memberTokens (members.map (fun m => (m.1, m.2.value)) ++ [(last.1, .number last.2 0)]) =
      printedTokens members ++ [.string last.1, .colon, .number last.2 0] := by
  have hmore : ∀ (name : List Char) (value : Value) (members : List (List Char × Printed)),
      moreMembers (members.map (fun m => (m.1, m.2.value)) ++ [(name, value)]) =
        .comma :: (printedTokens members ++ (.string name :: .colon :: value.tokens)) := by
    intro name value members
    induction members with
    | nil => simp [moreMembers, printedTokens]
    | cons m members ih => simp [moreMembers, ih, printedTokens]
  cases members with
  | nil => rfl
  | cons m members =>
      rw [List.map_cons, List.cons_append, memberTokens, hmore]
      simp [printedTokens, Value.tokens]

/-- The object stands for its members exactly when the strings among the values need no
escapes. -/
theorem objectText_standsFor {members : List (List Char × Printed)} {last : List Char × ℤ}
    (hnames : ∀ m ∈ members, Unescaped m.1) (hlast : Unescaped last.1) :
    StandsFor (objectText members last) (objectValue members last).tokens
      (∀ m ∈ members, m.2.Plain) := by
  have hend : scan .between " \x7d".toList = some (.between, [.endObject]) := rfl
  have hnumber := (StandsFor.nil.cons_scan hend).printInt rfl last.2
  have hmembers := StandsFor.flatMap_memberText hnames (hnumber.cons_scan (scan_nameText hlast))
  have hbegin : scan .between "\x7b ".toList = some (.between, [.beginObject]) := rfl
  refine ((hmembers.cons_scan hbegin).congr ?_ (and_iff_left trivial)).of_eq ?_
  · simp [objectValue, Value.tokens, memberTokens_printed]
  · simp [objectText]

end Json
