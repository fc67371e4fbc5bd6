import CodeDelta.Proofs.Files.OsPath
import CodeDelta.Proofs.Locator.Display
import CodeDelta.Proofs.Registry.Registrations
import CodeDelta.Resolve.Locator

/-!
# Dispatch

Whom a registry hands a file or a locator to, told from the registrations that made it. The
extension of a file picks the last analyzer that lists it (`analyzerAt?_of_extension`), a scheme
the last factory that was registered for it (`Context.locator_of_scheme`). Both are compared in
small letters. A file whose extension is no text goes by its first line.

Paths and revisions are resolved before any scheme is looked up, and all that they need of a
registry is its choice of analyzers (`ChoosesLike`, `Context.locator_congr`), so factories of the
schemes `file` and `git` are never asked for a locator that was read from a text.
-/

namespace CodeDelta

open Text

/-- Whether a name is listed, in letters of any case. -/
def IsListed (name : String) (names : List String) : Prop :=
  ∃ other ∈ names, lowerAscii other = lowerAscii name

instance (name : String) (names : List String) : Decidable (IsListed name names) :=
  inferInstanceAs (Decidable (∃ other ∈ names, lowerAscii other = lowerAscii name))

/-- A name is listed exactly when its small form is among the small forms. -/
theorem isListed_iff {name : String} {names : List String} :
    IsListed name names ↔ lowerAscii name ∈ names.map lowerAscii := List.mem_map.symm

/-- What comes of a resource in the hands of a factory: its adapter is made with the resource when
the factory accepts one and with none otherwise, and then loads. -/
def AdapterFactory.outcome (factory : AdapterFactory) (resource : String) (space : Workspace) :
    Except Failure Structure :=
  (factory.create (if factory.acceptsResource then some resource else none)).bind fun adapter =>
    adapter space

/-- Whether a factory is registered for one of the schemes that need none. -/
def Registration.isShadowed : Registration → Bool
  | .analyzer _ => false
  | .factory added => lowerAscii added.scheme == "file" || lowerAscii added.scheme == "git"

namespace Registry

variable {registrations : List Registration}

/-! ## Extensions and schemes -/

/-- An extension leads to the last analyzer that lists it, in letters of any case. -/
theorem analyzerOfExtension?_ofRegistrations (registrations : List Registration)
    (extension : String) :
    (ofRegistrations registrations).analyzerOfExtension? extension =
      (analyzersOf registrations).findRev? fun analyzer =>
        IsListed extension analyzer.extensions := by
  have known := reflects_ofRegistrations registrations
  have leads := known.extensions.leads (lowerAscii extension)
  rw [known.analyzers] at leads
  unfold analyzerOfExtension?
  rw [known.analyzers, leads]
  congr 1
  exact funext fun analyzer => decide_eq_decide.2 isListed_iff.symm

/-- An interpreter leads to the last analyzer that lists it as it is written. -/
theorem analyzerOfInterpreter?_ofRegistrations (registrations : List Registration)
    (interpreter : String) :
    (ofRegistrations registrations).analyzerOfInterpreter? interpreter =
      (analyzersOf registrations).findRev? fun analyzer => interpreter ∈ analyzer.interpreters := by
  have known := reflects_ofRegistrations registrations
  have leads := known.interpreters.leads interpreter
  rw [known.analyzers] at leads
  unfold analyzerOfInterpreter?
  rw [known.analyzers, leads]

/-- A file whose extension is text goes to the last analyzer that lists it, whatever its content. -/
theorem analyzerAt?_of_extension {path : OsPath} {extension : String}
    (h : OsPath.extension? path = some (.ofText extension)) (content : Option (List UInt8)) :
    (ofRegistrations registrations).analyzerAt? path content =
      (analyzersOf registrations).findRev? fun analyzer =>
        IsListed extension analyzer.extensions := by
  unfold analyzerAt? analyzerOfContent?
  rw [OsPath.extensionText?_of_extension? h]
  exact analyzerOfExtension?_ofRegistrations registrations extension

/-- A file on a path that is text goes to the last analyzer that lists its extension. -/
theorem analyzerFor?_of_extension {path extension : String}
    (h : Path.extension? path = some extension) (space : Workspace) :
    (ofRegistrations registrations).analyzerFor? space path =
      (analyzersOf registrations).findRev? fun analyzer =>
        IsListed extension analyzer.extensions :=
  analyzerAt?_of_extension ((OsPath.extension?_ofText path).trans (congrArg _ h)) _

/-- The positions in both tables are those of analyzers. -/
theorem position_lt_length {entry : String × ℕ}
    (h : entry ∈ (ofRegistrations registrations).byExtension ++
      (ofRegistrations registrations).byInterpreter) :
    entry.2 < (ofRegistrations registrations).analyzers.length := by
  have known := reflects_ofRegistrations registrations
  rcases List.mem_append.1 h with inside | inside
  · exact known.extensions.inside entry inside
  · exact known.interpreters.inside entry inside

/-- A factory is registered for a scheme exactly when one is found for it. -/
theorem lastFactory?_eq_none_iff {scheme : String} :
    lastFactory? registrations scheme = none ↔
      ∀ factory ∈ factoriesOf registrations, lowerAscii factory.scheme ≠ lowerAscii scheme := by
  unfold lastFactory?
  rw [findRev?_eq_none_iff]
  simp only [decide_eq_true_eq, ne_eq]

/-- A scheme leads to the factory that was registered last for it. -/
theorem factory?_ofRegistrations (registrations : List Registration) (scheme : String) :
    (ofRegistrations registrations).factory? scheme = lastFactory? registrations scheme :=
  (reflects_ofRegistrations registrations).factories (lowerAscii scheme)

/-- The schemes are those of the factories, in small letters. -/
theorem mem_schemes_iff {scheme : String} :
    scheme ∈ (ofRegistrations registrations).schemes ↔
      ∃ factory ∈ factoriesOf registrations, lowerAscii factory.scheme = scheme := by
  have found := (reflects_ofRegistrations registrations).factories scheme
  unfold schemes
  generalize (ofRegistrations registrations).factories = entries at found
  -- What is listed is what something is found for.
  have listed : scheme ∉ entries.map Prod.fst ↔ entries.lookup scheme = none := by
    simp only [List.lookup_eq_none_iff, List.mem_map, not_exists, not_and, bne_iff_ne, ne_eq,
      eq_comm (a := scheme)]
  rw [← not_iff_not, listed, found, findRev?_eq_none_iff]
  simp only [decide_eq_true_eq, not_exists, not_and]

/-- The schemes ascend, so each is listed once. -/
theorem pairwise_schemes : (ofRegistrations registrations).schemes.Pairwise (· < ·) :=
  List.pairwise_map.2 (reflects_ofRegistrations registrations).ascending

/-! ## Registries that choose alike -/

/-- Whether two registries choose the same analyzers, whatever else they know. -/
structure ChoosesLike (registry other : Registry) : Prop where
  /-- For an extension. -/
  ofExtension : ∀ extension,
    registry.analyzerOfExtension? extension = other.analyzerOfExtension? extension
  /-- For an interpreter. -/
  ofInterpreter : ∀ interpreter,
    registry.analyzerOfInterpreter? interpreter = other.analyzerOfInterpreter? interpreter

/-- Runs with the same analyzers lead to registries that choose alike. -/
theorem choosesLike_of_analyzersOf {others : List Registration}
    (h : analyzersOf registrations = analyzersOf others) :
    ChoosesLike (ofRegistrations registrations) (ofRegistrations others) where
  ofExtension extension := by
    rw [analyzerOfExtension?_ofRegistrations, analyzerOfExtension?_ofRegistrations, h]
  ofInterpreter interpreter := by
    rw [analyzerOfInterpreter?_ofRegistrations, analyzerOfInterpreter?_ofRegistrations, h]

/-- A content has the same analyzer in registries that choose alike. -/
theorem ChoosesLike.ofContent {registry other : Registry} (h : ChoosesLike registry other)
    (extension : Option String) (content : Option (List UInt8)) :
    registry.analyzerOfContent? extension content = other.analyzerOfContent? extension content := by
  cases extension with
  | some extension => exact h.ofExtension extension
  | none => exact congrArg (Option.bind _) (funext h.ofInterpreter)

end Registry

namespace Resolve

open Registry

section Congr

variable {registry other : Registry} (h : ChoosesLike registry other) {options : Options}
  {space : Workspace} {checkout : Git.Checkout} {revision : String}

include h

/-- A directory is gathered alike by registries that choose alike. -/
theorem directory_congr (path : String) :
    directory registry options space path = directory other options space path := by
  have taken : ∀ found : Found, found.analyzer? registry path = found.analyzer? other path :=
    fun found => h.ofContent _ _
  unfold directory tasksBelow
  simp only [taken]

/-- A path is resolved alike. -/
theorem Context.path_congr (path : String) :
    Context.path ⟨registry, options, space⟩ path = Context.path ⟨other, options, space⟩ path := by
  have taken : registry.analyzerFor? space path = other.analyzerFor? space path :=
    h.ofContent _ _
  unfold Context.path Context.directory Context.file
  dsimp only
  rw [directory_congr h, taken]

/-- A recorded file has the same task. -/
theorem recordedTask?_congr (path : String) (content : List UInt8) :
    recordedTask? registry path content = recordedTask? other path content := by
  unfold recordedTask?
  simp only [h.ofContent]

/-- The recorded files of a listing are taken alike. -/
theorem recordedFiles_congr (lead : String) (paths : List String) :
    recordedFiles registry options checkout revision lead paths =
      recordedFiles other options checkout revision lead paths := by
  have foreign : ∀ path, isForeign registry path = isForeign other path := by
    intro path
    unfold isForeign
    simp only [h.ofExtension]
  induction paths with
  | nil => rfl
  | cons path rest ih =>
    rw [recordedFiles, recordedFiles, foreign, ih]
    simp only [recordedTask?_congr h]

/-- A recorded directory is gathered alike. -/
theorem recordedDirectory_congr (below label : String) :
    recordedDirectory registry options checkout revision below label =
      recordedDirectory other options checkout revision below label := by
  unfold recordedDirectory recordedBelow
  simp only [recordedFiles_congr h]

/-- A recorded file is analyzed alike. -/
theorem recordedFile_congr (path label : String) :
    recordedFile registry checkout revision path label =
      recordedFile other checkout revision path label := by
  unfold recordedFile
  simp only [recordedTask?_congr h]

/-- A path at a revision is resolved alike. -/
theorem recorded_congr (path : String) :
    recorded registry options space revision path =
      recorded other options space revision path := by
  unfold recorded
  simp only [recordedDirectory_congr h, recordedFile_congr h]

/-- Registries that choose the same analyzers and know the same factory of a locator's scheme
resolve the locator alike; for a path or a revision the factory does not matter. -/
theorem Context.locator_congr {locator : Locator}
    (known : locator.scheme = "file" ∨ locator.scheme = "git" ∨
      registry.factory? locator.scheme = other.factory? locator.scheme) :
    Context.locator ⟨registry, options, space⟩ locator =
      Context.locator ⟨other, options, space⟩ locator := by
  unfold Context.locator
  by_cases file : locator.scheme = Locator.fileScheme
  · rw [if_pos file, if_pos file, Context.path_congr h]
  · by_cases git : locator.scheme = RevisionAddress.scheme
    · rw [if_neg file, if_neg file, if_pos git, if_pos git]
      unfold Context.recorded
      simp only [recorded_congr h]
    · have same := (known.resolve_left file).resolve_left git
      rw [if_neg file, if_neg file, if_neg git, if_neg git]
      unfold Context.adapted
      rw [same]

end Congr

/-! ## Schemes that need no factory -/

section Shadowed

variable {registrations others : List Registration}

/-- What is not shadowed are the analyzers and some of the factories. -/
theorem analyzersOf_filter_isShadowed (registrations : List Registration) :
    analyzersOf (registrations.filter fun registration => !registration.isShadowed) =
      analyzersOf registrations := by
  unfold analyzersOf
  rw [List.filterMap_filter]
  refine List.filterMap_congr fun registration _ => ?_
  cases registration with
  | analyzer added => rfl
  | factory added => exact ite_self none

/-- A factory that is not shadowed is found as if the shadowed ones were not there. -/
theorem lastFactory?_filter_isShadowed {scheme : String} (file : lowerAscii scheme ≠ "file")
    (git : lowerAscii scheme ≠ "git") (registrations : List Registration) :
    lastFactory? (registrations.filter fun registration => !registration.isShadowed) scheme =
      lastFactory? registrations scheme := by
  -- The factories that stay are those of other schemes than the two.
  have stay : factoriesOf (registrations.filter fun registration => !registration.isShadowed) =
      (factoriesOf registrations).filter fun factory =>
        !(lowerAscii factory.scheme == "file" || lowerAscii factory.scheme == "git") := by
    unfold factoriesOf
    rw [List.filterMap_filter, List.filter_filterMap]
    refine List.filterMap_congr fun registration _ => ?_
    cases registration with
    | analyzer added => rfl
    | factory added => rfl
  unfold lastFactory?
  rw [stay]
  refine findRev?_filter fun factory _ same => ?_
  rw [of_decide_eq_true same, beq_false_of_ne file, beq_false_of_ne git]
  rfl

/-- Runs that differ in shadowed factories only have the same analyzers. -/
theorem analyzersOf_of_shadowed
    (same : (others.filter fun registration => !registration.isShadowed) =
      registrations.filter fun registration => !registration.isShadowed) :
    analyzersOf others = analyzersOf registrations := by
  rw [← analyzersOf_filter_isShadowed others, same, analyzersOf_filter_isShadowed]

/-- A locator whose scheme is in small letters is resolved alike after runs that differ in shadowed
factories only. -/
theorem Context.locator_of_shadowed {locator : Locator}
    (small : lowerAscii locator.scheme = locator.scheme)
    (same : (others.filter fun registration => !registration.isShadowed) =
      registrations.filter fun registration => !registration.isShadowed)
    (options : Options) (space : Workspace) :
    Context.locator ⟨ofRegistrations others, options, space⟩ locator =
      Context.locator ⟨ofRegistrations registrations, options, space⟩ locator := by
  refine Context.locator_congr (choosesLike_of_analyzersOf (analyzersOf_of_shadowed same)) ?_
  by_cases file : locator.scheme = "file"
  · exact Or.inl file
  · by_cases git : locator.scheme = "git"
    · exact Or.inr (Or.inl git)
    · rw [← small] at file git
      refine Or.inr (Or.inr ?_)
      rw [factory?_ofRegistrations, factory?_ofRegistrations,
        ← lastFactory?_filter_isShadowed file git others, same,
        lastFactory?_filter_isShadowed file git]

end Shadowed

/-- A locator of another scheme than `file` and `git` is resolved by the factory that was registered
last for its scheme, and fails without one. -/
theorem Context.locator_of_scheme {locator : Locator}
    (file : locator.scheme ≠ Locator.fileScheme) (git : locator.scheme ≠ RevisionAddress.scheme)
    (registrations : List Registration) (options : Options) (space : Workspace) :
    Context.locator ⟨ofRegistrations registrations, options, space⟩ locator =
      .ofExcept (match lastFactory? registrations locator.scheme with
        | some factory => factory.outcome locator.resource space
        | none => .error (.unsupportedScheme locator.scheme)) := by
  unfold Context.locator
  rw [if_neg file, if_neg git]
  unfold Context.adapted
  rw [factory?_ofRegistrations]
  cases lastFactory? registrations locator.scheme <;> rfl

/-- What a run of registrations leads to. Every position in the tables is that of an analyzer, and
the analyzers are those that were registered. A file whose extension is text goes to the last
analyzer that lists it, in letters of any case, whatever the file holds. The schemes ascend, each is
listed once, and they are those of the factories in small letters. A locator of another scheme than
`file` and `git` is resolved by the factory that was registered last for its scheme, in letters of
any case, and is unsupported exactly when there is none or the factory itself says so. Paths and
revisions need no factory, and those that are registered for `file` or `git` make no difference to a
locator that is read from a text: whichever of them come and go, it is resolved alike. -/
theorem ofRegistrations_dispatch (registrations : List Registration) :
    ((ofRegistrations registrations).analyzers = analyzersOf registrations ∧
      ∀ entry ∈ (ofRegistrations registrations).byExtension ++
          (ofRegistrations registrations).byInterpreter,
        entry.2 < (ofRegistrations registrations).analyzers.length) ∧
    ((∀ path content extension, OsPath.extension? path = some (.ofText extension) →
        (ofRegistrations registrations).analyzerAt? path content =
          (analyzersOf registrations).findRev? fun analyzer =>
            IsListed extension analyzer.extensions) ∧
      ∀ space path extension, Path.extension? path = some extension →
        (ofRegistrations registrations).analyzerFor? space path =
          (analyzersOf registrations).findRev? fun analyzer =>
            IsListed extension analyzer.extensions) ∧
    ((ofRegistrations registrations).schemes.Pairwise (· < ·) ∧
      ∀ scheme, scheme ∈ (ofRegistrations registrations).schemes ↔
        ∃ factory ∈ factoriesOf registrations, lowerAscii factory.scheme = scheme) ∧
    (∀ options space (locator : Locator), locator.scheme ≠ "file" → locator.scheme ≠ "git" →
      (∀ factory, lastFactory? registrations locator.scheme = some factory →
        Context.locator ⟨ofRegistrations registrations, options, space⟩ locator =
          .ofExcept (factory.outcome locator.resource space)) ∧
      (Context.locator ⟨ofRegistrations registrations, options, space⟩ locator =
          .ofExcept (.error (.unsupportedScheme locator.scheme)) ↔
        (∀ factory ∈ factoriesOf registrations,
          lowerAscii factory.scheme ≠ lowerAscii locator.scheme) ∨
        ∃ factory, lastFactory? registrations locator.scheme = some factory ∧
          factory.outcome locator.resource space =
            .error (.unsupportedScheme locator.scheme))) ∧
    (∀ others, analyzersOf others = analyzersOf registrations → ∀ options space (locator : Locator),
      locator.scheme = "file" ∨ locator.scheme = "git" →
      Context.locator ⟨ofRegistrations others, options, space⟩ locator =
        Context.locator ⟨ofRegistrations registrations, options, space⟩ locator) ∧
    ∀ others : List Registration,
      (others.filter fun registration => !registration.isShadowed) =
        (registrations.filter fun registration => !registration.isShadowed) →
      ∀ options space text,
        Context.locator ⟨ofRegistrations others, options, space⟩ (Locator.parse text) =
          Context.locator ⟨ofRegistrations registrations, options, space⟩ (Locator.parse text) := by
  have known := reflects_ofRegistrations registrations
  refine ⟨⟨known.analyzers, fun entry inside => position_lt_length inside⟩,
    ⟨fun path content extension has => analyzerAt?_of_extension has content,
      fun space path extension has => analyzerFor?_of_extension has space⟩,
    ⟨pairwise_schemes, fun scheme => mem_schemes_iff⟩, ?_, ?_, ?_⟩
  · intro options space locator file git
    have resolved := Context.locator_of_scheme file git registrations options space
    rw [resolved, ← lastFactory?_eq_none_iff]
    refine ⟨fun factory last => by rw [last], ?_⟩
    -- Both outcomes come without a question, so the sessions are the same when they are.
    have outcome_iff : ∀ outcome other : Except Failure Structure,
        Git.Session.ofExcept outcome = .ofExcept other ↔ outcome = other :=
      fun outcome other => ⟨Git.Dialogue.done.inj, congrArg _⟩
    rw [outcome_iff]
    cases lastFactory? registrations locator.scheme with
    | none => exact iff_of_true rfl (Or.inl rfl)
    | some factory => simp
  · intro others same options space locator scheme
    exact Context.locator_congr (choosesLike_of_analyzersOf same)
      (scheme.imp_right fun git => Or.inl git)
  · intro others same options space text
    exact Context.locator_of_shadowed (Locator.lowerAscii_scheme_parse text) same options space

/-- A factory of paths, which are resolved without one. -/
def elsewhere : AdapterFactory := ⟨"file", true, fun _ => .ok fun _ => .ok (.ofFile "elsewhere")⟩

/-- A factory that does not support its own scheme. -/
def refusing : AdapterFactory := ⟨"ftp", false, fun _ => .error (.unsupportedScheme "ftp")⟩

/-- An extension that is no text, and that no analyzer lists, leaves the choice to the file's first
line. A factory of paths is asked for a locator whose scheme was written in capitals and never read
from a text. A scheme can be unsupported although it has a factory. -/
theorem not_ofRegistrations_dispatch :
    (OsPath.extension? (OsPath.ofText "tool." ++ [0xFF]) = some [0xFF] ∧
      (∀ analyzer ∈ analyzersOf [.analyzer .python], ∀ extension ∈ analyzer.extensions,
        OsPath.ofText (lowerAscii extension) ≠ [0xFF]) ∧
      (ofRegistrations [.analyzer .python]).analyzerAt? (OsPath.ofText "tool." ++ [0xFF])
        (some (encodeUtf8 "#!/usr/bin/python\n".toList)) = some .python) ∧
    Context.locator ⟨ofRegistrations [.factory elsewhere], .standard, ⟨.empty, [], []⟩⟩
        ⟨"FILE", "a.py"⟩ = .ofExcept (.ok (.ofFile "elsewhere")) ∧
    (lastFactory? [.factory refusing] "ftp" = some refusing ∧
      Context.locator ⟨ofRegistrations [.factory refusing], .standard, ⟨.empty, [], []⟩⟩
        ⟨"ftp", "host"⟩ = .ofExcept (.error (.unsupportedScheme "ftp"))) := by
  have bare : OsPath.extensionText? (OsPath.ofText "tool." ++ [0xFF]) = none := by decide
  have named : Interpreter.ofContent? (encodeUtf8 "#!/usr/bin/python\n".toList) =
      some "python" := by decide
  have script : (ofRegistrations [.analyzer .python]).analyzerAt? (OsPath.ofText "tool." ++ [0xFF])
      (some (encodeUtf8 "#!/usr/bin/python\n".toList)) = some .python := by
    unfold analyzerAt? analyzerOfContent?
    rw [bare]
    dsimp only
    rw [Option.bind_some, named, Option.bind_some, analyzerOfInterpreter?_ofRegistrations]
    rfl
  refine ⟨⟨by decide, by decide, script⟩, ?_, rfl, ?_⟩
  · rw [Context.locator_of_scheme (by decide) (by decide)]
    rfl
  · rw [Context.locator_of_scheme (by decide) (by decide)]
    rfl

end Resolve

end CodeDelta
