import CodeDelta.Text.Blank

/-!
# Revision expressions

An expression is the name of a reference followed by steps: `~n` to the n-th ancestor along first
parents, `^n` to the n-th parent, and a step in braces that stays at the commit. A number that is
left out is one.
-/

namespace CodeDelta.Git

/-- A step from a commit to another. -/
inductive Step where
  /-- Along first parents, so many times. -/
  | ancestor (generations : Nat)
  /-- To a parent, counted from one; zero is the commit itself. -/
  | parent (number : Nat)
  /-- To the commit itself. -/
  | itself
deriving DecidableEq, Repr

/-- A revision expression. -/
structure Revision where
  /-- The name of the reference. -/
  name : String
  /-- The steps from it. -/
  steps : List Step
deriving DecidableEq, Repr

/-- A number in decimal digits; one when there are none. -/
def stepNumber (digits : List Char) : Nat :=
  if digits.isEmpty then 1
  else digits.foldl (fun value digit => value * 10 + (digit.toNat - 48)) 0

/-- A step, from the mark that starts it and the text up to the next one. -/
def Step.parse? (mark : Char) (text : List Char) : Option Step :=
  if text.all Char.isDigit then
    some (if mark = '~' then .ancestor (stepNumber text) else .parent (stepNumber text))
  else if mark = '^' ∧ (text = "\x7b\x7d".toList ∨ text = "\x7bcommit\x7d".toList) then
    some .itself
  else none

/-- Whether a character starts a step. -/
def isStepMark (c : Char) : Bool := c == '~' || c == '^'

/-- The parts of an expression: a text, and behind each mark a text without marks. -/
def splitSteps : List Char → List Char × List (Char × List Char)
  | [] => ([], [])
  | c :: rest =>
    let (text, steps) := splitSteps rest
    if isStepMark c then ([], (c, text) :: steps) else (c :: text, steps)

/-- Reads an expression. -/
def Revision.parse? (text : String) : Option Revision :=
  let (name, steps) := splitSteps text.toList
  (steps.mapM fun step => Step.parse? step.1 step.2).map fun steps => ⟨String.ofList name, steps⟩

end CodeDelta.Git
