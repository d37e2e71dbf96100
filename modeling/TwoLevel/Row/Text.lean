import TwoLevel.Row.Basic
import TwoLevel.Text.Blank

/-
  This file defines the written forms of a row: one character
  per value, and the conjunction of its demands.

  Key definitions include:
    * `Row.ofChars`
    * `Row.ofText`
    * `Row.toText`
    * `Row.toTerm`

  Main theorems:
    * `ofChars_toChars`
    * `ofChars_eq_ok_iff`
-/

namespace TwoLevel

namespace Row

------------------------------------------------------------
-- One Character per Value
------------------------------------------------------------

/- The characters of a row. -/
def toChars
    (row : Row) : List Char :=
  row.values.map Value.toChar

/- The text of a row. -/
def toText
    (row : Row) : String :=
  String.ofList row.toChars

/-
  Read one value per character. The first character that is
  no value is reported.
-/
def ofChars
    (cs : List Char) : Except Fault Row := do
  let values ← cs.mapM Value.ofChar
  return { values }

/- Read a row from a text, ignoring blanks at its ends. -/
def ofText
    (s : String) : Except Fault Row :=
  ofChars (Text.trim s.toList)

private theorem mapM_ofChar_eq_ok_iff
    {cs : List Char}
    {vs : List Value} :
    cs.mapM Value.ofChar = .ok vs ↔
      cs = vs.map Value.toChar := by
  induction cs generalizing vs with
  | nil => cases vs <;> simp [pure, Except.pure]
  | cons c cs ih =>
      rw [List.mapM_cons]
      constructor
      · intro h
        cases hc : Value.ofChar c with
        | error fault =>
            rw [hc] at h
            cases h
        | ok v =>
            cases hcs : cs.mapM Value.ofChar with
            | error fault =>
                rw [hc, hcs] at h
                cases h
            | ok ws =>
                rw [hc, hcs] at h
                cases h
                rw [List.map_cons, ← ih.1 hcs,
                  ← Value.ofChar_eq_ok_iff.1 hc]
      · intro h
        cases vs with
        | nil => cases h
        | cons v ws =>
            rw [List.map_cons, List.cons.injEq] at h
            rw [Value.ofChar_eq_ok_iff.2 h.1, ih.2 h.2]
            rfl

/- Reading accepts exactly what writing produces. -/
theorem ofChars_eq_ok_iff
    {cs : List Char}
    {row : Row} :
    ofChars cs = .ok row ↔ cs = row.toChars := by
  unfold ofChars toChars
  rw [← mapM_ofChar_eq_ok_iff]
  cases cs.mapM Value.ofChar with
  | error fault => simp [bind, Except.bind]
  | ok vs =>
      simp [bind, Except.bind, pure, Except.pure, Row.ext_iff]

@[simp] theorem ofChars_toChars
    (row : Row) :
    ofChars row.toChars = .ok row :=
  ofChars_eq_ok_iff.2 rfl

------------------------------------------------------------
-- Terms
------------------------------------------------------------

/-
  The name of the variable at a position: the one given, or
  else its number counted from one.
-/
def variableName
    (names : List String)
    (position : Nat) : String :=
  match names[position]? with
  | some name => name
  | none => "x" ++ (position + 1).repr

/- A demand is the variable or its negation. -/
def Literal.toTerm
    (names : List String)
    (literal : Literal) : String :=
  if literal.polarity then
    variableName names literal.position
  else
    "!" ++ variableName names literal.position

/-
  The conjunction of the demands of a row. A row without
  demands is true.
-/
def toTerm
    (row : Row)
    (names : List String) : String :=
  if row.literals.isEmpty then
    "true"
  else
    " & ".intercalate
      (row.literals.map (Literal.toTerm names))

end Row

end TwoLevel
