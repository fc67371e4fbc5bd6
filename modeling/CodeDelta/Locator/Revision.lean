import CodeDelta.Locator.Fault
import CodeDelta.Text.Blank

/-!
# Addresses of recorded revisions

A path at a revision is written `path@revision`; the last `@` counts. An older form,
`revision/path`, splits at the first slash and is read only where no `@` occurs.
-/

namespace CodeDelta

open Text

/-- A path pinned to a revision. -/
structure RevisionAddress where
  /-- The path, `.` for the whole tree. -/
  path : String
  /-- The revision expression. -/
  revision : String
deriving DecidableEq, Repr

namespace RevisionAddress

/-- The scheme of revision addresses. -/
def scheme : String := "git"

/-- Reads either form of a revision address. -/
def parse (resource : String) : Except Locator.Fault RevisionAddress :=
  match splitLast? '@' resource.toList with
  | some (path, revision) =>
    if revision.isEmpty then .error (.missingRevision resource)
    else if path.isEmpty then .ok ⟨".", String.ofList revision⟩
    else .ok ⟨String.ofList path, String.ofList revision⟩
  | none =>
    match splitFirst? '/' resource.toList with
    | some (revision, path) =>
      if revision.isEmpty || path.isEmpty then .error (.noRevisionAddress resource)
      else .ok ⟨String.ofList path, String.ofList revision⟩
    | none => .error (.noRevisionAddress resource)

end RevisionAddress

end CodeDelta
