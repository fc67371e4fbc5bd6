import CodeDelta.Git.Checkout
import CodeDelta.Proofs.Git.Listing

/-!
# Outcomes of sessions

What comes of a session when a function answers its questions: one equation for each way a session
is put together. What a listing was written from is read back from it, so a work tree's questions
have the outcomes that the replies spell (`outcome_files`, `outcome_entries`, `outcome_blob`).
-/

namespace CodeDelta.Git

/-- Running programs one after another. -/
theorem Dialogue.run_bind {α β : Type} (answer : String → String → Query → Reply)
    (dialogue : Dialogue α) (next : α → Dialogue β) :
    (dialogue.bind next).run answer = (next (dialogue.run answer)).run answer := by
  induction dialogue with
  | done result => rfl
  | ask program directory query rest ih => exact ih _

namespace Session

variable {α β : Type} (answer : String → String → Query → Reply)

/-- What comes of a session whose questions are answered by a function. -/
def outcome (session : Session α) : Except Failure α := session.run.run answer

/-- A session that only returns. -/
@[simp]
theorem outcome_pure (result : α) : outcome answer (pure result) = .ok result := rfl

/-- A session that only fails. -/
@[simp]
theorem outcome_throw (failure : Failure) :
    outcome answer (throw failure : Session α) = .error failure := rfl

/-- A finished outcome. -/
@[simp]
theorem outcome_ofExcept (result : Except Failure α) :
    outcome answer (ofExcept result) = result := rfl

/-- A question. -/
@[simp]
theorem outcome_ask (program directory : String) (query : Query) :
    outcome answer (ask program directory query) = .ok (answer program directory query) := rfl

/-- One session after another; a failure ends both. -/
@[simp]
theorem outcome_bind (session : Session α) (next : α → Session β) :
    outcome answer (session >>= next) =
      (outcome answer session).bind fun result => outcome answer (next result) := by
  unfold outcome
  rw [ExceptT.run_bind]
  refine (Dialogue.run_bind answer _ _).trans ?_
  cases session.run.run answer <;> rfl

end Session

namespace Checkout

variable {answer : String → String → Query → Reply} {checkout : Checkout}

/-- The output of a command that ends well. -/
theorem outcome_output {query : Query} {output errors : List UInt8}
    (h : answer checkout.program checkout.root query = .ended 0 output errors) :
    Session.outcome answer (checkout.output query) = .ok output := by
  unfold Checkout.output Checkout.ask
  simp only [Session.outcome_bind, Session.outcome_ask, h]
  rfl

/-- A command that ends with another status than zero fails. -/
theorem outcome_output_of_ne_zero {query : Query} {status : ℕ} {output errors : List UInt8}
    (failed : status ≠ 0)
    (h : answer checkout.program checkout.root query = .ended status output errors) :
    Session.outcome answer (checkout.output query) =
      .error (statusFailure checkout.program query status errors) := by
  obtain ⟨before, rfl⟩ := Nat.exists_eq_succ_of_ne_zero failed
  unfold Checkout.output Checkout.ask
  simp only [Session.outcome_bind, Session.outcome_ask, h]
  rfl

/-- The content of a file is the output. -/
theorem outcome_blob {revision path : String} {content errors : List UInt8}
    (h : answer checkout.program checkout.root (.blob revision path) = .ended 0 content errors) :
    Session.outcome answer (checkout.blob revision path) = .ok content :=
  outcome_output h

end Checkout

/-- The files that git lists are those whose names it wrote. -/
theorem Checkout.outcome_files {answer : String → String → Query → Reply} {checkout : Checkout}
    {revision directory : String} {paths : List String} {errors : List UInt8}
    (h : ∀ path ∈ paths, path ≠ "" ∧ Char.ofNat 0 ∉ path.toList)
    (reply : answer checkout.program checkout.root (.files revision directory) =
      .ended 0 (listing (paths.map String.toList)) errors) :
    Session.outcome answer (checkout.files revision directory) = .ok paths := by
  unfold Checkout.files
  rw [Session.outcome_bind, outcome_output reply]
  exact congrArg Except.ok (parseNames_listing_iff.2 h)

/-- The entries that git lists are those whose lines it wrote. -/
theorem Checkout.outcome_entries {answer : String → String → Query → Reply} {checkout : Checkout}
    {revision path : String} {entries : List ListedEntry} {errors : List UInt8}
    (worded : ∀ listed ∈ entries, listed.IsWorded)
    (free : ∀ listed ∈ entries, Char.ofNat 0 ∉ listed.toLine)
    (reply : answer checkout.program checkout.root (.entries revision path) =
      .ended 0 (listing (entries.map ListedEntry.toLine)) errors) :
    Session.outcome answer (checkout.entries revision path) =
      .ok (entries.map ListedEntry.toTreeEntry) := by
  unfold Checkout.entries
  rw [Session.outcome_bind, outcome_output reply]
  exact congrArg Except.ok (parseEntries_listing_of_free worded free)

end CodeDelta.Git
