/-!
# Why an address is refused

Every way in which the text of a locator, or of the revision address inside one, can be unreadable,
with the sentence that tells the user what was expected instead.
-/

namespace CodeDelta.Locator

/-- The reasons for refusing an address. -/
inductive Fault where
  /-- More scheme markers than one for each side. -/
  | manyMarkers (locator : String) (count : Nat)
  /-- One of the two sides is empty. -/
  | emptySide (locator : String)
  /-- No colon separates two bare sides. -/
  | noSeparator (locator : String)
  /-- No colon follows a left side that names its scheme. -/
  | noSeparatorAfterScheme (locator : String)
  /-- No colon stands between two sides that both name their schemes. -/
  | noSeparatorBetweenSchemes (locator : String)
  /-- Nothing follows the `@` of a revision address. -/
  | missingRevision (resource : String)
  /-- The text has neither form of a revision address. -/
  | noRevisionAddress (resource : String)
deriving DecidableEq, Repr

/-- The sentence shown to the user. -/
def Fault.message : Fault → String
  | .manyMarkers locator count =>
    s!"'{locator}' contains {count} scheme markers; expected at most one per side, as in " ++
      "'scheme://left:scheme://right'"
  | .emptySide locator => s!"'{locator}' must name two resources as '<left>:<right>'"
  | .noSeparator locator => s!"'{locator}' has no ':' separating the two resources"
  | .noSeparatorAfterScheme locator =>
    s!"'{locator}' has no ':' after the scheme-qualified left side; expected " ++
      "'scheme://left:right'"
  | .noSeparatorBetweenSchemes locator =>
    s!"'{locator}' has no ':' between its two scheme-qualified sides; expected " ++
      "'scheme://left:scheme://right'"
  | .missingRevision resource =>
    s!"missing revision after '@' in '{resource}', expected git://path@revision"
  | .noRevisionAddress resource =>
    s!"cannot read revision address '{resource}', expected git://path@revision or " ++
      "git://revision/path"

end CodeDelta.Locator
