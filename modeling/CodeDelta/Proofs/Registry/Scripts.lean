import CodeDelta.Proofs.Files.Workspace
import CodeDelta.Proofs.Registry.Dispatch
import CodeDelta.Proofs.Registry.FirstLine

/-!
# Scripts

Who analyzes a script. Its first line names the interpreter in letters of any case, and the name is
looked up in small letters (`ofLine?_of_mem_scriptLines`), while the interpreters of an analyzer are
entered as they are written. So the script goes to the last analyzer that lists the small form of
the name (`analyzerFor?_of_isScript`), and an analyzer that lists the name only with a capital
letter waits for its scripts in vain.
-/

namespace CodeDelta.Registry

open Text

variable {registrations : List Registration} {space : Workspace} {path name : String}

/-- A script: a file without an extension, readable, whose first line starts an interpreter. -/
structure IsScript (space : Workspace) (path name : String) : Prop where
  /-- The path has no extension. -/
  bare : Path.extension? path = none
  /-- The interpreter is letters and underscores. -/
  proper : Interpreter.IsName name.toList
  /-- The file is read, and its first line is one of the two. -/
  starts : ∃ content, space.read path = .ok content ∧ ∃ line ∈ Interpreter.scriptLines name,
    Interpreter.firstLine content = encodeUtf8 line.toList

/-- Either line makes a script of a file without an extension, whatever the file goes on with. -/
theorem isScript_holding {file line text rest : String} (valid : Path.IsName file)
    (place : path = "/" ++ file) (bare : Path.extension? path = none)
    (proper : Interpreter.IsName name.toList) (spelled : line ∈ Interpreter.scriptLines name)
    (content : text = line ++ "\n" ++ rest) : IsScript (.holding file text) path name where
  bare := bare
  proper := proper
  starts := by
    have read : (Workspace.holding file text).read path = .ok (encodeUtf8 text.toList) := by
      rw [place]
      exact Workspace.read_holding valid text
    have parts : text.toList = line.toList ++ '\n' :: rest.toList := by
      rw [content, String.toList_append, String.toList_append, List.append_assoc]
      rfl
    have unbroken := Interpreter.not_mem_of_mem_scriptLines proper spelled
    refine ⟨_, read, line, spelled, ?_⟩
    rw [parts]
    exact Interpreter.firstLine_encodeUtf8 unbroken rest.toList

/-- A script goes to the last analyzer that lists its interpreter in small letters. -/
theorem analyzerFor?_of_isScript (h : IsScript space path name) :
    (ofRegistrations registrations).analyzerFor? space path =
      (analyzersOf registrations).findRev? fun analyzer =>
        lowerAscii name ∈ analyzer.interpreters := by
  obtain ⟨content, read, line, spelled, first⟩ := h.starts
  have named : Interpreter.ofContent? content = some (lowerAscii name) :=
    (Interpreter.ofContent?_of_firstLine first).trans
      (Interpreter.ofLine?_of_mem_scriptLines h.proper spelled)
  have interpreter : ((space.read path).toOption.bind Interpreter.ofContent?) =
      some (lowerAscii name) := by
    rw [read]
    exact named
  calc (ofRegistrations registrations).analyzerFor? space path
      = ((space.read path).toOption.bind Interpreter.ofContent?).bind
          (ofRegistrations registrations).analyzerOfInterpreter? := by
        unfold analyzerFor? analyzerAt? analyzerOfContent?
        rw [OsPath.extensionText?_ofText, h.bare]
    _ = (ofRegistrations registrations).analyzerOfInterpreter? (lowerAscii name) := by
        rw [interpreter, Option.bind_some]
    _ = (analyzersOf registrations).findRev? fun analyzer =>
          lowerAscii name ∈ analyzer.interpreters :=
        analyzerOfInterpreter?_ofRegistrations registrations (lowerAscii name)

/-- A script reaches the last analyzer that lists its interpreter, in letters of any case, exactly
when that analyzer lists the interpreter in small letters. -/
theorem analyzerFor?_script_iff {analyzer : Analyzer} (h : IsScript space path name)
    (last : ((analyzersOf registrations).findRev? fun analyzer =>
      IsListed name analyzer.interpreters) = some analyzer) :
    (ofRegistrations registrations).analyzerFor? space path = some analyzer ↔
      lowerAscii name ∈ analyzer.interpreters := by
  rw [analyzerFor?_of_isScript h]
  constructor
  · intro found
    rw [List.findRev?_eq_find?_reverse] at found
    obtain ⟨looked, -⟩ := List.find?_eq_some_iff_append.1 found
    exact of_decide_eq_true looked
  · intro small
    -- Who lists the small form lists the name, so none of the later analyzers does.
    have listed : ∀ other ∈ analyzersOf registrations,
        decide (lowerAscii name ∈ other.interpreters) = true →
        decide (IsListed name other.interpreters) = true := by
      intro other _ inside
      exact decide_eq_true ⟨lowerAscii name, of_decide_eq_true inside, lowerAscii_idem name⟩
    exact findRev?_of_imp listed last (decide_eq_true small)

/-- A script of Python, spelled with a capital, goes to the analyzer of Python files. -/
theorem analyzerFor?_script_iff_python :
    IsScript (.holding "tool" "#!/usr/bin/env Python\nimport os\n") "/tool" "Python" ∧
    builtin.analyzerFor? (.holding "tool" "#!/usr/bin/env Python\nimport os\n") "/tool" =
      some .python := by
  have script : IsScript (.holding "tool" "#!/usr/bin/env Python\nimport os\n") "/tool" "Python" :=
    isScript_holding (by decide) (by decide) (by decide) (by decide) List.mem_cons_self
      (by decide : _ = _ ++ "\n" ++ "import os\n")
  have reached := @analyzerFor?_script_iff [.analyzer .python, .analyzer .rust,
    .factory .snapshot, .factory .standardInput] _ _ _ _ script rfl
  rw [ofRegistrations_builtin] at reached
  exact ⟨script, reached.2 (by decide)⟩

/-- An analyzer of reports whose interpreter is spelled with a capital. -/
def reports : Analyzer := ⟨"report", ["r"], ["Rscript"], fun path _ => .ok (.ofFile path)⟩

/-- The interpreter is listed just as the script spells it, and the script has no analyzer. -/
theorem analyzerFor?_reports :
    IsScript (.holding "report" "#!/usr/bin/env Rscript\n") "/report" "Rscript" ∧
    ((analyzersOf [.analyzer reports]).findRev? fun analyzer =>
      IsListed "Rscript" analyzer.interpreters) = some reports ∧
    (ofRegistrations [.analyzer reports]).analyzerFor?
      (.holding "report" "#!/usr/bin/env Rscript\n") "/report" = none := by
  have script : IsScript (.holding "report" "#!/usr/bin/env Rscript\n") "/report" "Rscript" :=
    isScript_holding (by decide) (by decide) (by decide) (by decide) List.mem_cons_self
      (by decide : _ = _ ++ "\n" ++ "")
  refine ⟨script, rfl, ?_⟩
  rw [analyzerFor?_of_isScript script]
  rfl

end CodeDelta.Registry
