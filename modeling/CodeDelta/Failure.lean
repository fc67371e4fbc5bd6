import CodeDelta.Json.Draft
import CodeDelta.Locator.Fault

/-!
# Failures

Everything that can go wrong between a locator and a structure, the class each failure belongs to,
and the sentence that reports it.
-/

namespace CodeDelta

/-- Why a resource was not resolved. -/
inductive Failure where
  /-- A locator cannot be split, or holds a bad revision address. -/
  | format (message : String)
  /-- No adapter has the scheme. -/
  | unsupportedScheme (scheme : String)
  /-- The path does not exist. -/
  | pathNotFound (path : String)
  /-- No analyzer takes the file. -/
  | noAnalyzer (path : String)
  /-- The path lies in no repository. -/
  | notVersionControlled (path : String)
  /-- The expression names no commit. -/
  | unknownRevision (revision : String)
  /-- The commit's tree has no such path. -/
  | pathNotFoundAtRevision (path revision : String)
  /-- The analyzer could not read the file. -/
  | analysis (path message : String)
  /-- The adapter could not be made, or could not load. -/
  | adapter (scheme message : String)
  /-- A command could not be run or ended in failure. -/
  | command (command status stderr : String)
  /-- The operating system refused. -/
  | io (message : String)
  /-- A document could not be read. -/
  | json (fault : Json.Fault)
deriving DecidableEq, Repr, Inhabited

/-- The classes of failures that a user is told apart. -/
inductive Failure.Class where
  | format
  | resolution
  | analysis
deriving DecidableEq, Repr

/-- The words that introduce a failure of a class. -/
def Failure.Class.label : Failure.Class → String
  | .format => "Format error"
  | .resolution => "Resolution error"
  | .analysis => "Analysis error"

namespace Failure

/-- A locator that is refused. -/
def ofFault (fault : Locator.Fault) : Failure := .format fault.message

/-- The class of a failure. -/
def classOf : Failure → Failure.Class
  | format _ => .format
  | analysis _ _ | adapter _ _ | json _ => .analysis
  | unsupportedScheme _ | pathNotFound _ | noAnalyzer _ | notVersionControlled _
  | unknownRevision _ | pathNotFoundAtRevision _ _ | command _ _ _ | io _ => .resolution

/-- What is wrong with a document, in words. -/
def documentFault : Json.Fault → String
  | .grammar => "syntax"
  | .data => "data"
  | .ending => "eof"

/-- The sentence that reports a failure. -/
def message : Failure → String
  | format text => s!"Invalid locator: {text}"
  | unsupportedScheme scheme => s!"Unsupported scheme: {scheme}://"
  | pathNotFound path => s!"Path not found: {path}"
  | noAnalyzer path => s!"No analyzer registered for: {path}"
  | notVersionControlled path => s!"Not a version-controlled resource: {path}"
  | unknownRevision revision => s!"Unknown revision: {revision}"
  | pathNotFoundAtRevision path revision => s!"Path not found at revision {revision}: {path}"
  | analysis path text => s!"Failed to analyze {path}: {text}"
  | adapter scheme text => s!"Adapter {scheme}:// failed: {text}"
  | .command name status stderr => s!"Command `{name}` failed ({status}): {stderr}"
  | io text => s!"IO error: {text}"
  | json fault => s!"JSON error: {documentFault fault}"

/-- The line that tells a user of a failure. -/
def describe (failure : Failure) : String := failure.classOf.label ++ ": " ++ failure.message

end Failure

end CodeDelta
