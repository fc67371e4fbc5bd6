import CodeDelta.Proofs.Diff.Alike
import CodeDelta.Proofs.Diff.ByFile

/-!
# The order of files

The order in which a directory's files are gathered does not matter to a comparison. Directories of
the same files compare as equal (`diff_of_perm`): in functions and classes the records under a tag
compare one file with itself, and imports are matched by their statements, whatever file they come
from.
-/

namespace CodeDelta

open Structure (ofFiles fileAt)

/-- Of files with distinct paths the same one is found in any order. -/
theorem Structure.fileAt_of_perm {as bs : List (String × Structure)} (h : as.Perm bs)
    (distinct : (as.map Prod.fst).Nodup) (file : String) : fileAt as file = fileAt bs file := by
  have same : as.lookup file = bs.lookup file := by
    refine Option.ext fun part => ?_
    rw [lookup_eq_some_iff_mem distinct,
      lookup_eq_some_iff_mem ((h.map Prod.fst).nodup distinct), h.mem_iff]
  unfold fileAt
  rw [same]

/-- A comparison looks at elements only. -/
theorem diff_congr {a a' b b' : Structure}
    (ha : ∀ category, a.elements category = a'.elements category)
    (hb : ∀ category, b.elements category = b'.elements category) : a.diff b = a'.diff b' := by
  have scoped_ : fileScoped a b = fileScoped a' b' := by
    unfold fileScoped Structure.isFileTagged
    simp only [ha, hb]
  unfold Structure.diff Structure.detailTo
  simp only [scoped_, ha, hb]

/-- Directories that gather the same files, in any order, have no records. -/
theorem get_detail_of_perm {as bs : List (String × Structure)} (here there : String)
    (h : as.Perm bs) (distinct : (as.map Prod.fst).Nodup) (category : Category) :
    ((ofFiles here as).diff (ofFiles there bs)).detail.get category = [] := by
  have members : ∀ category, ∀ element, element ∈ (ofFiles here as).elements category ↔
      element ∈ (ofFiles there bs).elements category := by
    intro category element
    rw [Structure.elements_ofFiles, Structure.elements_ofFiles]
    exact (h.flatMap_right _).mem_iff
  have tag : ∀ {path files}, ∀ element ∈ (ofFiles path files).elements category,
      (ofFiles path files).isFileTagged = true := by
    intro path files element he
    obtain ⟨file, -, hf⟩ := Structure.exists_file_of_mem_ofFiles he
    exact (Structure.isFileTagged_iff _).2
      ⟨category, element, he, by rw [hf]; exact Option.some_ne_none file⟩
  rw [List.eq_nil_iff_forall_not_mem]
  intro record hr
  obtain ⟨file, -, hf⟩ := exists_file_of_mem_detail hr
  have both : fileScoped (ofFiles here as) (ofFiles there bs) = true := by
    have he : record.element ∈ (ofFiles here as).elements category := by
      rw [get_detail_diff] at hr
      exact (mem_of_mem_diffCategory hr).elim id (members category record.element).2
    unfold fileScoped
    rw [tag _ he, tag _ ((members category _).1 he), Bool.and_self]
  by_cases noImport : category = .importDecl
  · -- Imports are matched by their statements, and both sides have the same ones.
    subst noImport
    rw [get_detail_diff_eq, (recordsBy_eq_nil_iff (nodup_keys_lastBy _ _)).2
      (Matches.importDecl fun k => by simp only [mem_matchable, members])] at hr
    exact List.not_mem_nil hr
  · -- Under the record's tag both sides list one file's elements.
    have here_ : record ∈ (((ofFiles here as).diff (ofFiles there bs)).detail.get category).filter
        fun record => record.element.file = some file :=
      List.mem_filter.2 ⟨hr, decide_eq_true hf⟩
    rw [filter_detail_ofFiles distinct ((h.map Prod.fst).nodup distinct) both noImport,
      ← Structure.fileAt_of_perm h distinct,
      Structure.alike_iff_detail.1 (Structure.Alike.refl _)] at here_
    exact List.not_mem_nil here_

/-- Directories that gather the same files, in any order, compare as equal. -/
theorem diff_of_perm {as bs : List (String × Structure)} (here there : String) (h : as.Perm bs)
    (distinct : (as.map Prod.fst).Nodup) :
    (ofFiles here as).diff (ofFiles there bs) = ⟨.zero, ⟨[], [], []⟩⟩ :=
  diff_eq_of_detail_nil (get_detail_of_perm here there h distinct)

end CodeDelta
