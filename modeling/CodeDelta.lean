import CodeDelta.CommandLine
import CodeDelta.Document.Decode
import CodeDelta.Document.Encode
import CodeDelta.Git.Repository
import CodeDelta.Main
import CodeDelta.Resolve.Locator
import CodeDelta.Proofs.Diff.ByName
import CodeDelta.Proofs.Diff.EmptySide
import CodeDelta.Proofs.Diff.Mirror
import CodeDelta.Proofs.Document.Comparisons
import CodeDelta.Proofs.Document.Snapshot
import CodeDelta.Proofs.Locator.Join
import CodeDelta.Proofs.Locator.Octets
import CodeDelta.Proofs.Render.Lines
import CodeDelta.Proofs.Resolve.Agreement
import CodeDelta.Proofs.Diff.Alike
import CodeDelta.Proofs.Diff.Reorder
import CodeDelta.Proofs.Resolve.Entries
import CodeDelta.Proofs.Diff.Origin
import CodeDelta.Proofs.Render.Agreement
import CodeDelta.Proofs.Render.Printed
import CodeDelta.Proofs.Outline.ClassNames
import CodeDelta.Proofs.Diff.Patch
import CodeDelta.Proofs.Locator.Suffix
import CodeDelta.Proofs.Locator.Display
import CodeDelta.Proofs.Locator.Revision
import CodeDelta.Proofs.Registry.Pattern
import CodeDelta.Proofs.Registry.Scripts
import CodeDelta.Proofs.Diff.Wording
import CodeDelta.Proofs.Git.Inside
import CodeDelta.Proofs.Syntax.Forks
import CodeDelta.Proofs.Outline.Positions
import CodeDelta.Proofs.Diff.Statements
import CodeDelta.Proofs.Resolve.Questions
import CodeDelta.Proofs.Resolve.Skipped
