import TwoLevel.Proofs.Computation
import TwoLevel.Proofs.Row.Symmetry
import TwoLevel.Proofs.Text.Pieces
import TwoLevel.Row.Text

/-
  This file reads the terms of rows back. A term is cut at its
  conjunctions, and each piece is a variable or its negation,
  the variables numbered from one. The demands that are read
  are those of the row, so they give the row and its
  assignments again.

  Key definitions include:
    * `Row.ofLiterals`
    * `Literal.metBy`
    * `number?`
    * `position?`
    * `literal?`
    * `literals?`

  Main theorems:
    * `mem_literals_iff`
    * `ofLiterals_literals`
    * `satisfiedBy_eq_all_literals`
    * `literal?_toTerm`
    * `literals?_toTerm`
-/

namespace TwoLevel

theorem Value.toBool?_eq_some_iff
    {v : Value}
    {bit : Bool} :
    v.toBool? = some bit ↔ v = ofBool bit := by
  cases v <;> cases bit <;> decide

namespace Row

------------------------------------------------------------
-- Demands and Literals
------------------------------------------------------------

/- Past the end of a row there is no demand. -/
theorem position_lt_of_demand
    {row : Row}
    {position : Nat}
    {polarity : Bool}
    (h : row.demand position = Value.ofBool polarity) :
    position < row.arity := by
  by_contra hBeyond
  have hNone : row.values[position]? = none :=
    List.getElem?_eq_none (Nat.not_lt.1 hBeyond)
  rw [demand, List.getD_eq_getElem?_getD, hNone] at h
  cases polarity <;> cases h

/- The literals of a row are its demands, with their places. -/
theorem mem_literals_iff
    {row : Row}
    {literal : Literal} :
    literal ∈ row.literals ↔
      row.demand literal.position =
        Value.ofBool literal.polarity := by
  unfold literals
  rw [List.mem_filterMap]
  constructor
  · intro hGiven
    rcases hGiven with ⟨⟨v, position⟩, hMem, hMap⟩
    rcases Option.map_eq_some_iff.1 hMap with
      ⟨polarity, hPolarity, rfl⟩
    have hPlace := List.mem_zipIdx_iff_getElem?.1 hMem
    rw [demand, List.getD_eq_getElem?_getD, hPlace]
    exact Value.toBool?_eq_some_iff.1 hPolarity
  · intro hDemand
    have hLt := position_lt_of_demand hDemand
    have hPlace :
        row.values[literal.position]? =
          some (Value.ofBool literal.polarity) := by
      rw [demand, List.getD_eq_getElem?_getD,
        List.getElem?_eq_getElem hLt] at hDemand
      rw [List.getElem?_eq_getElem hLt, ← hDemand]
      rfl
    refine ⟨(Value.ofBool literal.polarity,
      literal.position),
      List.mem_zipIdx_iff_getElem?.2 hPlace, ?_⟩
    dsimp only
    rw [Value.toBool?_ofBool]
    rfl

theorem position_lt_of_mem_literals
    {row : Row}
    {literal : Literal}
    (h : literal ∈ row.literals) :
    literal.position < row.arity :=
  position_lt_of_demand (mem_literals_iff.1 h)

/- The row over so many variables that has these demands. -/
def ofLiterals
    (arity : Nat)
    (literals : List Literal) : Row where
  values :=
    (List.range arity).map
      (fun position =>
        if { position, polarity := true } ∈ literals then
          .one
        else if
            { position, polarity := false } ∈ literals then
          .zero
        else
          .dontCare)

/- A row is known by its literals. -/
theorem ofLiterals_literals
    {arity : Nat}
    {row : Row}
    (h : row.arity = arity) :
    ofLiterals arity row.literals = row := by
  have hArity :
      (ofLiterals arity row.literals).arity = arity := by
    simp [ofLiterals, Row.arity]
  refine ext_demand hArity h (fun i => ?_)
  have hDemand :
      (ofLiterals arity row.literals).demand i =
        if row.demand i = .one then
          .one
        else if row.demand i = .zero then
          .zero
        else
          .dontCare := by
    simp [demand, ofLiterals, mem_literals_iff,
      Value.ofBool]
  rw [hDemand]
  cases row.demand i <;> rfl

/- Whether the variable of a literal has its truth value. -/
def Literal.metBy
    (literal : Literal)
    (assignment : List Bool) : Bool :=
  assignment[literal.position]? == some literal.polarity

/- A row is the conjunction of its literals. -/
theorem satisfiedBy_eq_all_literals
    {row : Row}
    {assignment : List Bool}
    (hLength : assignment.length = row.arity) :
    row.satisfiedBy assignment =
      row.literals.all (·.metBy assignment) := by
  rw [Bool.eq_iff_iff,
    satisfiedBy_iff_forall_demand rfl hLength,
    List.all_eq_true]
  constructor
  · intro hAll literal hMem
    have hLt := position_lt_of_mem_literals hMem
    have hAccepts := hAll ⟨literal.position, hLt⟩
    rw [mem_literals_iff.1 hMem, Value.accepts_ofBool,
      beq_iff_eq, List.getD_eq_getElem?_getD] at hAccepts
    rw [← hLength] at hLt
    rw [List.getElem?_eq_getElem hLt] at hAccepts
    rw [Literal.metBy, List.getElem?_eq_getElem hLt,
      hAccepts]
    exact BEq.rfl
  · intro hAll i
    cases hDemand : (row.demand i).toBool? with
    | none =>
        cases hValue : row.demand i with
        | dontCare => rfl
        | zero =>
            rw [hValue] at hDemand
            cases hDemand
        | one =>
            rw [hValue] at hDemand
            cases hDemand
    | some polarity =>
        have hValue := Value.toBool?_eq_some_iff.1 hDemand
        have hMet :=
          hAll ⟨i, polarity⟩ (mem_literals_iff.2 hValue)
        rw [Literal.metBy, beq_iff_eq] at hMet
        rw [hValue, Value.accepts_ofBool,
          List.getD_eq_getElem?_getD, hMet]
        exact BEq.rfl

------------------------------------------------------------
-- Reading a Literal
------------------------------------------------------------

/- The number that is written in decimal digits. -/
def number?
    (digits : List Char) : Option Nat :=
  if digits.isEmpty || !digits.all Char.isDigit then
    none
  else
    some (Nat.ofDigitChars 10 digits 0)

theorem number?_toDigits
    (n : Nat) :
    number? (Nat.toDigits 10 n) = some n := by
  have hDigits :
      (Nat.toDigits 10 n).all Char.isDigit = true := by
    rw [List.all_eq_true]
    intro c hc
    exact Nat.isDigit_of_mem_toDigits
      (by decide) (by decide) hc
  have hNe : (Nat.toDigits 10 n).isEmpty = false :=
    List.isEmpty_eq_false_iff.2 Nat.toDigits_ne_nil
  rw [number?, hDigits, hNe, Nat.ofDigitChars_ten_toDigits]
  rfl

/- The position of one of so many variables by its name. -/
def position?
    (arity : Nat) : List Char → Option Nat
  | 'x' :: digits =>
      (number? digits).bind
        (fun number =>
          if 1 ≤ number ∧ number ≤ arity then
            some (number - 1)
          else
            none)
  | _ => none

/- A variable, or its negation. -/
def literal?
    (arity : Nat) : List Char → Option Literal
  | '!' :: name =>
      (position? arity name).map
        ({ position := ·, polarity := false })
  | name =>
      (position? arity name).map
        ({ position := ·, polarity := true })

theorem toList_variableName
    (position : Nat) :
    (variableName [] position).toList =
      'x' :: Nat.toDigits 10 (position + 1) := by
  have hName :
      variableName [] position =
        "x" ++ (position + 1).repr := rfl
  rw [hName, String.toList_append, Nat.toList_repr]
  rfl

theorem position?_variableName
    {arity position : Nat}
    (hLt : position < arity) :
    position? arity (variableName [] position).toList =
      some position := by
  have hRange : 1 ≤ position + 1 ∧ position + 1 ≤ arity :=
    ⟨Nat.le_add_left 1 position, hLt⟩
  rw [toList_variableName]
  change (number? (Nat.toDigits 10 (position + 1))).bind _ = _
  rw [number?_toDigits, Option.bind_some, if_pos hRange,
    Nat.add_sub_cancel]

/- A printed literal is read back. -/
theorem literal?_toTerm
    {arity : Nat}
    {literal : Literal}
    (hLt : literal.position < arity) :
    literal? arity (literal.toTerm []).toList =
      some literal := by
  have hName := position?_variableName hLt
  rcases literal with ⟨position, polarity⟩
  cases polarity with
  | false =>
      have hTerm :
          (Literal.toTerm [] ⟨position, false⟩).toList =
            '!' :: (variableName [] position).toList := by
        simp [Literal.toTerm]
      rw [hTerm, literal?, hName]
      rfl
  | true =>
      have hTerm :
          (Literal.toTerm [] ⟨position, true⟩).toList =
            (variableName [] position).toList := by
        simp [Literal.toTerm]
      -- A name begins with no sign.
      have hPositive :
          literal? arity (variableName [] position).toList =
            (position? arity
                (variableName [] position).toList).map
              (⟨·, true⟩) := by
        rw [toList_variableName]
        rfl
      rw [hTerm, hPositive, hName]
      rfl

/- Literals have no other characters. -/
theorem Literal.not_mem_toTerm
    {c : Char}
    (hSign : c ≠ '!')
    (hName : c ≠ 'x')
    (hDigit : c.isDigit = false)
    (literal : Literal) :
    c ∉ (literal.toTerm []).toList := by
  have hVariable :
      c ∉ (variableName [] literal.position).toList := by
    rw [toList_variableName, List.mem_cons, not_or]
    refine ⟨hName, fun hMem => ?_⟩
    rw [Nat.isDigit_of_mem_toDigits
      (by decide) (by decide) hMem] at hDigit
    cases hDigit
  unfold Literal.toTerm
  split
  · exact hVariable
  · rw [String.toList_append, List.mem_append, not_or]
    refine ⟨?_, hVariable⟩
    simpa using hSign

------------------------------------------------------------
-- Reading a Term
------------------------------------------------------------

/- The literals of a conjunction, of none if it is true. -/
def literals?
    (arity : Nat)
    (term : List Char) : Option (List Literal) :=
  if term = "true".toList then
    some []
  else
    (Text.pieces (Text.spaced '&') term).mapM
      (literal? arity)

/- The texts of the literals are the pieces of the term. -/
theorem pieces_toTerm
    {row : Row}
    (h : row.literals ≠ []) :
    Text.pieces (Text.spaced '&') (row.toTerm []).toList =
      row.literals.map
        (fun literal => (literal.toTerm []).toList) := by
  have hTerm :
      (row.toTerm []).toList =
        (Text.spaced '&').intercalate
          (row.literals.map
            (fun literal => (literal.toTerm []).toList)) := by
    have hSome : row.literals.isEmpty ≠ true := by
      rw [ne_eq, List.isEmpty_iff]
      exact h
    rw [toTerm, if_neg hSome, String.toList_intercalate,
      List.map_map]
    rfl
  rw [hTerm]
  apply Text.pieces_intercalate (by decide)
  · rw [ne_eq, List.map_eq_nil_iff]
    exact h
  · intro text hText
    rcases List.mem_map.1 hText with ⟨literal, _, rfl⟩
    exact literal.not_mem_toTerm
      (by decide) (by decide) (by decide)

/- A printed term is read back, with or without literals. -/
theorem literals?_toTerm
    {arity : Nat}
    {row : Row}
    (h : row.arity = arity) :
    literals? arity (row.toTerm []).toList =
      some row.literals := by
  by_cases hNone : row.literals = []
  · have hTerm : row.toTerm [] = "true" := by
      rw [toTerm, hNone]
      rfl
    rw [hTerm, hNone, literals?, if_pos rfl]
  · have hRead :
        (Text.pieces (Text.spaced '&')
          (row.toTerm []).toList).mapM (literal? arity) =
            some row.literals := by
      rw [pieces_toTerm hNone,
        mapM_map_eq_some (k := id), List.map_id]
      intro literal hLiteral
      apply literal?_toTerm
      rw [← h]
      exact position_lt_of_mem_literals hLiteral
    -- No literal is called `true`.
    have hTrue : (row.toTerm []).toList ≠ "true".toList := by
      intro hEq
      have hLone :
          Text.pieces (Text.spaced '&') "true".toList =
            ["true".toList] :=
        Text.pieces_eq_singleton (by decide)
      rw [hEq, hLone, List.mapM_cons] at hRead
      cases hRead
    rw [literals?, if_neg hTrue, hRead]

/- A term has no bar in it. -/
theorem bar_not_mem_toTerm
    (row : Row) :
    '|' ∉ (row.toTerm []).toList := by
  unfold toTerm
  split
  · decide
  · rw [String.toList_intercalate, List.map_map]
    apply Text.not_mem_intercalate (by decide)
    intro text hText
    rcases List.mem_map.1 hText with ⟨literal, _, rfl⟩
    exact literal.not_mem_toTerm
      (by decide) (by decide) (by decide)

end Row

end TwoLevel
