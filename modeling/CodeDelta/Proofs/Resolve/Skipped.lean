import CodeDelta.Settings
import CodeDelta.Proofs.Text.FirstAppearance
import Mathlib.Data.List.DropRight

/-!
# Directories that are not entered

The names that are added to the list of skipped directories are taken without the slashes they end
in (`trimSlashes_eq_iff`), so different names may leave the same one, or none at all. What is left
of the names is added once each, in the order of first appearance (`skipped_skipping`). The list
therefore depends on the names in a row and not on the batches they come in (`foldl_skipping`),
names that are listed add nothing (`skipping_eq_self`), and each name keeps the list free of
repeats, empty names and slashes at the end (`IsSkipList.addName`), so any number of them does
(`IsSkipList.foldl_addName`).
-/

namespace CodeDelta

namespace Resolve.Options

variable {options : Options} {name given short : String} {names skipped : List String}

/-! ## Names without the slashes they end in -/

/-- The second name is what is left of the first without the slashes it ends in. -/
structure Trims (given short : String) : Prop where
  /-- Only slashes are taken, and only from the end. -/
  taken : ∃ count, given.toList = short.toList ++ List.replicate count '/'
  /-- No slash is left there. -/
  ends : short.toList.getLast? ≠ some '/'

/-- The characters of a trimmed name. -/
theorem toList_trimSlashes (given : String) :
    (trimSlashes given).toList = given.toList.rdropWhile (· == '/') := String.toList_ofList

/-- A trimmed name is what is left. -/
theorem trims_trimSlashes (given : String) : Trims given (trimSlashes given) where
  taken := by
    have slashes : ∀ c ∈ given.toList.rtakeWhile (· == '/'), c = '/' := fun c inside =>
      eq_of_beq (List.mem_rtakeWhile_imp (p := (· == '/')) inside)
    refine ⟨(given.toList.rtakeWhile (· == '/')).length, ?_⟩
    rw [← List.eq_replicate_of_mem slashes, toList_trimSlashes, List.rdropWhile_append_rtakeWhile]
  ends := by
    rw [toList_trimSlashes]
    intro last
    obtain ⟨some, slash⟩ := List.mem_getLast?_eq_getLast last
    exact List.rdropWhile_last_not _ _ some (by rw [← slash]; rfl)

/-- Only one name can be what is left. -/
theorem trimSlashes_eq_iff : trimSlashes given = short ↔ Trims given short := by
  refine ⟨fun same => same ▸ trims_trimSlashes given, fun h => ?_⟩
  have stays : short.toList.rdropWhile (· == '/') = short.toList := by
    refine List.rdropWhile_eq_self_iff.2 fun some slash => h.ends ?_
    rw [List.getLast?_eq_some_getLast some, eq_of_beq slash]
  -- The slashes are dropped one by one, and the character in front of them ends it.
  have dropped : ∀ count,
      (short.toList ++ List.replicate count '/').rdropWhile (· == '/') = short.toList := by
    intro count
    induction count with
    | zero => rw [List.replicate_zero, List.append_nil, stays]
    | succ count ih =>
      rw [List.replicate_succ', ← List.append_assoc, List.rdropWhile_concat_pos _ _ _ rfl, ih]
  obtain ⟨count, taken⟩ := h.taken
  rw [← String.toList_inj, toList_trimSlashes, taken, dropped]

/-- What is left of some names, without those of which nothing is left. -/
def kept (names : List String) : List String := (names.map trimSlashes).filter (· ≠ "")

/-- A name is left when it is not empty and one of the names is trimmed to it. -/
theorem mem_kept : name ∈ kept names ↔ name ≠ "" ∧ ∃ given ∈ names, Trims given name := by
  rw [kept, List.mem_filter, List.mem_map, decide_eq_true_eq, and_comm]
  simp only [trimSlashes_eq_iff]

/-! ## The list after more names -/

/-- What is left of the names and is not listed yet is added once each, in the order of first
appearance. -/
theorem skipped_skipping (options : Options) (names : List String) :
    (options.skipping names).skipped =
      options.skipped ++ ((kept names).filter fun name => name ∉ options.skipped).eraseDups := by
  -- A name of which nothing is left is passed over, as if it had been left out before.
  have step : addName = fun skipped given =>
      if decide (trimSlashes given ≠ "") = true then
        if trimSlashes given ∈ skipped then skipped else skipped ++ [trimSlashes given]
      else skipped := by
    funext skipped given
    unfold addName
    by_cases empty : trimSlashes given = ""
    · simp only [empty, true_or, if_true, ne_eq, not_true_eq_false, decide_false,
        Bool.false_eq_true, if_false]
    · simp only [empty, false_or, ne_eq, not_false_eq_true, decide_true, if_true]
  rw [← Text.foldl_append_new, kept, List.foldl_filter, List.foldl_map, ← step]
  rfl

/-- What was listed stays in front. -/
theorem prefix_skipped_skipping (options : Options) (names : List String) :
    options.skipped <+: (options.skipping names).skipped := by
  rw [skipped_skipping]
  exact List.prefix_append _ _

/-- What is listed after more names. -/
theorem mem_skipped_skipping :
    name ∈ (options.skipping names).skipped ↔ name ∈ options.skipped ∨ name ∈ kept names := by
  rw [skipped_skipping, List.mem_append, List.mem_eraseDups, List.mem_filter, decide_eq_true_eq]
  by_cases listed : name ∈ options.skipped
  · exact iff_of_true (Or.inl listed) (Or.inl listed)
  · rw [and_iff_left listed]

/-- Batches of names are added like the names in a row. -/
theorem foldl_skipping (options : Options) (batches : List (List String)) :
    batches.foldl skipping options = options.skipping batches.flatten := by
  induction batches generalizing options with
  | nil => rfl
  | cons batch rest ih =>
    rw [List.foldl_cons, ih, List.flatten_cons, skipping, skipping, skipping, List.foldl_append]

/-- Names add nothing when all that is left of them is listed. -/
theorem skipping_eq_self (listed : ∀ name ∈ kept names, name ∈ options.skipped) :
    options.skipping names = options := by
  have nothing : ((kept names).filter fun name => name ∉ options.skipped) = [] :=
    List.filter_eq_nil_iff.2 fun name inside new => of_decide_eq_true new (listed name inside)
  have same : (options.skipping names).skipped = options.skipped := by
    rw [skipped_skipping, nothing, List.eraseDups_nil, List.append_nil]
  calc options.skipping names
      = { options with skipped := (options.skipping names).skipped } := rfl
    _ = options := by rw [same]

/-! ## What every list keeps -/

/-- A list of names that directories can have, each once. -/
structure IsSkipList (skipped : List String) : Prop where
  /-- No name is listed twice. -/
  nodup : skipped.Nodup
  /-- No name is empty. -/
  filled : ∀ name ∈ skipped, name ≠ ""
  /-- No name ends in a slash. -/
  ends : ∀ name ∈ skipped, name.toList.getLast? ≠ some '/'

/-- The standard list is one. -/
theorem isSkipList_defaultSkipped : IsSkipList defaultSkipped :=
  ⟨by decide, by decide, by decide⟩

/-- One more name keeps the list so. -/
theorem IsSkipList.addName (h : IsSkipList skipped) (given : String) :
    IsSkipList (addName skipped given) := by
  unfold Options.addName
  dsimp only
  split_ifs with passed
  · exact h
  · obtain ⟨some, new⟩ := not_or.1 passed
    refine ⟨?_, fun name inside => ?_, fun name inside => ?_⟩
    · have apart : ∀ listed ∈ skipped, ∀ last ∈ [trimSlashes given], listed ≠ last := by
        intro listed inside last hl same
        rw [List.mem_singleton.1 hl] at same
        exact new (same ▸ inside)
      exact List.nodup_append.2 ⟨h.nodup, List.pairwise_singleton _ _, apart⟩
    · rcases List.mem_append.1 inside with before | last
      · exact h.filled name before
      · rw [List.mem_singleton.1 last]
        exact some
    · rcases List.mem_append.1 inside with before | last
      · exact h.ends name before
      · rw [List.mem_singleton.1 last]
        exact (trims_trimSlashes given).ends

/-- Any number of names keep it so. -/
theorem IsSkipList.foldl_addName (h : IsSkipList skipped) (names : List String) :
    IsSkipList (names.foldl Options.addName skipped) := by
  induction names generalizing skipped with
  | nil => exact h
  | cons given rest ih =>
    rw [List.foldl_cons]
    exact ih (h.addName given)

/-- More names keep the options' list so. -/
theorem IsSkipList.skipping (h : IsSkipList options.skipped) (names : List String) :
    IsSkipList (options.skipping names).skipped := h.foldl_addName names

/-- The options after some batches of names. -/
def afterBatches (batches : List (List String)) : Options := batches.foldl skipping standard

/-- After any batches of names the list starts with the standard names and holds, behind them, what
is left of the names without the slashes they end in, each once in the order of first appearance;
no name is repeated, empty or ends in a slash. The batches count as one, and a batch that was added
before adds nothing. -/
theorem skipping_batches (batches : List (List String)) :
    defaultSkipped <+: (afterBatches batches).skipped ∧
      (afterBatches batches).skipped = (defaultSkipped ++ kept batches.flatten).eraseDups ∧
      (∀ name, name ∈ (afterBatches batches).skipped ↔ name ∈ defaultSkipped ∨
        name ≠ "" ∧ ∃ batch ∈ batches, ∃ given ∈ batch, Trims given name) ∧
      IsSkipList (afterBatches batches).skipped ∧
      afterBatches batches = standard.skipping batches.flatten ∧
      ∀ batch ∈ batches, (afterBatches batches).skipping batch = afterBatches batches := by
  have inRow : afterBatches batches = standard.skipping batches.flatten :=
    foldl_skipping standard batches
  have start : standard.skipped = defaultSkipped := rfl
  rw [inRow]
  refine ⟨prefix_skipped_skipping standard _, ?_, fun name => ?_,
    isSkipList_defaultSkipped.skipping _, rfl, fun batch inside => ?_⟩
  · rw [skipped_skipping, start, Text.eraseDups_append_new isSkipList_defaultSkipped.nodup]
  · have inBatch : (∃ given ∈ batches.flatten, Trims given name) ↔
        ∃ batch ∈ batches, ∃ given ∈ batch, Trims given name := by
      constructor
      · rintro ⟨given, listed, trims⟩
        obtain ⟨batch, inside, listed⟩ := List.mem_flatten.1 listed
        exact ⟨batch, inside, given, listed, trims⟩
      · rintro ⟨batch, inside, given, listed, trims⟩
        exact ⟨given, List.mem_flatten.2 ⟨batch, inside, listed⟩, trims⟩
    rw [mem_skipped_skipping, start, mem_kept, inBatch]
  · refine skipping_eq_self fun name left => mem_skipped_skipping.2 (Or.inr ?_)
    obtain ⟨some, given, listed, trims⟩ := mem_kept.1 left
    exact mem_kept.2 ⟨some, given, List.mem_flatten.2 ⟨batch, inside, listed⟩, trims⟩

/-- Two batches whose names fall together once they are trimmed: with each other, with standard
names, or with nothing. -/
theorem skipping_batches_vendor :
    let batches := [["vendor/", ".git", "//"], ["out//", "vendor", "dist/", ""]]
    (afterBatches batches).skipped = defaultSkipped ++ ["vendor", "out"] ∧
      ["vendor/", ".git", "//"] ∈ batches ∧
      (afterBatches batches).skipping ["vendor/", ".git", "//"] = afterBatches batches := by
  intro batches
  have inside : ["vendor/", ".git", "//"] ∈ batches := List.mem_cons_self
  obtain ⟨-, listed, -, -, -, again⟩ := skipping_batches batches
  refine ⟨?_, inside, again _ inside⟩
  rw [listed]
  decide

end Resolve.Options

/-- The list that a settings file leads to starts with the standard names, and is as every list. -/
theorem Settings.isSkipList_resolution (settings : Settings) :
    Resolve.defaultSkipped <+: settings.resolution.skipped ∧
      Resolve.Options.IsSkipList settings.resolution.skipped :=
  ⟨Resolve.Options.prefix_skipped_skipping .standard settings.skipped,
    Resolve.Options.isSkipList_defaultSkipped.skipping settings.skipped⟩

end CodeDelta
