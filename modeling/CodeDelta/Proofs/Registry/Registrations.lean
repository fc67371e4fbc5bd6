import CodeDelta.Registry.Builtin
import CodeDelta.Proofs.Json.Members
import CodeDelta.Proofs.Text.Case
import Mathlib.Data.List.Basic
import Mathlib.Data.List.Find
import Mathlib.Data.List.Induction

/-!
# What a registry knows after some registrations

A registry is made by one registration after another. What it knows then can be told from the list
of registrations alone (`Reflects`): the analyzers are those that were registered, in order, each
key of a table leads to the last analyzer that has it (`IsIndex`), and each scheme to the last
factory that was registered for it. One registration keeps this (`Reflects.register`), so every run
of registrations leads to it (`reflects_ofRegistrations`).

An earlier registration is never undone. An analyzer whose keys have all been taken over keeps its
place in the list, so the places that the tables name stay those of the analyzers that they were
entered for.
-/

namespace CodeDelta

open Text

/-! ## Lists searched from their end -/

/-- The last member is the first to be looked at. -/
theorem findRev?_append_singleton {α : Type} (p : α → Bool) (xs : List α) (x : α) :
    (xs ++ [x]).findRev? p = if p x then some x else xs.findRev? p := by
  rw [List.findRev?_eq_find?_reverse, List.findRev?_eq_find?_reverse, List.reverse_concat,
    List.find?_cons]
  cases p x <;> rfl

/-- Nothing is found exactly when nothing is looked for. -/
theorem findRev?_eq_none_iff {α : Type} {p : α → Bool} {xs : List α} :
    xs.findRev? p = none ↔ ∀ x ∈ xs, ¬p x = true := by
  rw [List.findRev?_eq_find?_reverse, List.find?_eq_none]
  simp only [List.mem_reverse]

/-- What is left out of a list is not missed by those who do not look for it. -/
theorem findRev?_filter {α : Type} {p q : α → Bool} {xs : List α}
    (h : ∀ x ∈ xs, p x = true → q x = true) : (xs.filter q).findRev? p = xs.findRev? p := by
  rw [List.findRev?_eq_find?_reverse, List.findRev?_eq_find?_reverse, ← List.filter_reverse,
    List.find?_filter]
  refine List.find?_congr fun x hx => ?_
  rw [Bool.eq_iff_iff, decide_eq_true_iff]
  exact and_iff_right_of_imp (h x (List.mem_reverse.1 hx))

/-- Who looks for less finds the same when it is among what he looks for. -/
theorem findRev?_of_imp {α : Type} {p q : α → Bool} {xs : List α} {x : α}
    (h : ∀ y ∈ xs, q y = true → p y = true) (found : xs.findRev? p = some x) (hx : q x = true) :
    xs.findRev? q = some x := by
  rw [List.findRev?_eq_find?_reverse, List.find?_eq_some_iff_append] at found ⊢
  obtain ⟨-, before, after, whole, passed⟩ := found
  refine ⟨hx, before, after, whole, fun y hy => ?_⟩
  have inside : y ∈ xs := by
    rw [← List.mem_reverse, whole]
    exact List.mem_append_left _ hy
  have other := passed y hy
  rw [Bool.not_eq_true'] at other ⊢
  exact Bool.eq_false_iff.2 fun looked => Bool.eq_false_iff.1 other (h y inside looked)

/-! ## Tables of positions -/

/-- Setting an entry changes what is found under its key and nothing else. -/
theorem lookup_upsert {α : Type} (key label : String) (value : α) (entries : List (String × α)) :
    (upsert key value entries).lookup label =
      if label = key then some value else entries.lookup label := by
  unfold upsert
  rw [Json.lookup_cons_eq_if]
  split_ifs with same
  · rfl
  · -- The entries that go are all of the key, which is not the one that is looked up.
    induction entries with
    | nil => rfl
    | cons entry rest ih =>
      obtain ⟨other, old⟩ := entry
      by_cases gone : other = key
      · have different : label ≠ other := fun this => same (this.trans gone)
        rw [List.filter_cons_of_neg (by simpa using gone), ih, Json.lookup_cons_eq_if,
          if_neg different]
      · rw [List.filter_cons_of_pos (by simpa using gone), Json.lookup_cons_eq_if,
          Json.lookup_cons_eq_if, ih]

/-- An entry of a table is the one that was set, or stood there before. -/
theorem mem_upsert {α : Type} {key : String} {value : α} {entries : List (String × α)}
    {entry : String × α} (h : entry ∈ upsert key value entries) :
    entry = (key, value) ∨ entry ∈ entries := by
  rcases List.mem_cons.1 h with rfl | h
  · exact Or.inl rfl
  · exact Or.inr (List.mem_of_mem_filter h)

/-- The table with a position under several keys. -/
def enter (position : ℕ) (keys : List String) (table : List (String × ℕ)) : List (String × ℕ) :=
  keys.foldl (fun table key => upsert key position table) table

/-- Entering a position changes what is found under its keys and nothing else. -/
theorem lookup_enter (position : ℕ) (keys : List String) (table : List (String × ℕ))
    (label : String) :
    (enter position keys table).lookup label =
      if label ∈ keys then some position else table.lookup label := by
  unfold enter
  induction keys generalizing table with
  | nil => rw [List.foldl_nil, if_neg List.not_mem_nil]
  | cons key keys ih =>
    rw [List.foldl_cons, ih, lookup_upsert]
    by_cases later : label ∈ keys
    · rw [if_pos later, if_pos (List.mem_cons_of_mem key later)]
    · rw [if_neg later]
      by_cases first : label = key
      · rw [if_pos first, if_pos (by rw [first]; exact List.mem_cons_self)]
      · rw [if_neg first, if_neg (by rw [List.mem_cons, not_or]; exact ⟨first, later⟩)]

/-- An entry of a table has the position that was entered, or stood there before. -/
theorem mem_enter {position : ℕ} {keys : List String} {table : List (String × ℕ)}
    {entry : String × ℕ} (h : entry ∈ enter position keys table) :
    entry.2 = position ∨ entry ∈ table := by
  unfold enter at h
  induction keys generalizing table with
  | nil => exact Or.inr h
  | cons key keys ih =>
    rcases ih h with here | before
    · exact Or.inl here
    · exact (mem_upsert before).imp (congrArg Prod.snd) id

/-- Whether a table of positions in a list of analyzers leads from each key to the last analyzer
that has it. -/
structure IsIndex (keys : Analyzer → List String) (analyzers : List Analyzer)
    (table : List (String × ℕ)) : Prop where
  /-- Every position is one of an analyzer. -/
  inside : ∀ entry ∈ table, entry.2 < analyzers.length
  /-- A key leads to the last analyzer that has it, and nowhere when none does. -/
  leads : ∀ key, (table.lookup key).bind (fun position => analyzers[position]?) =
    analyzers.findRev? fun analyzer => key ∈ keys analyzer

/-- Without analyzers a table has no entries. -/
theorem IsIndex.nil (keys : Analyzer → List String) : IsIndex keys [] [] where
  inside _ h := absurd h List.not_mem_nil
  leads _ := rfl

/-- An analyzer that is entered behind the others takes over its keys, and the others keep theirs
and their positions. -/
theorem IsIndex.append {keys : Analyzer → List String} {analyzers : List Analyzer}
    {table : List (String × ℕ)} (h : IsIndex keys analyzers table) (analyzer : Analyzer) :
    IsIndex keys (analyzers ++ [analyzer])
      (enter analyzers.length (keys analyzer) table) where
  inside entry he := by
    rw [List.length_append, List.length_singleton]
    rcases mem_enter he with here | before
    · omega
    · have := h.inside entry before
      omega
  leads key := by
    rw [lookup_enter, findRev?_append_singleton]
    by_cases own : key ∈ keys analyzer
    · rw [if_pos own, if_pos (decide_eq_true own), Option.bind_some]
      exact List.getElem?_concat_length
    · rw [if_neg own, if_neg (fun this => own (of_decide_eq_true this)), ← h.leads key]
      -- The positions in the table are before the new one, where the list is as it was.
      cases found : table.lookup key with
      | none => rfl
      | some position =>
        obtain ⟨before, after, rfl, -⟩ := List.lookup_eq_some_iff.1 found
        have old : position < analyzers.length :=
          h.inside (key, position) (List.mem_append_right before List.mem_cons_self)
        rw [Option.bind_some, Option.bind_some]
        exact List.getElem?_append_left old

/-! ## Runs of registrations -/

/-- What is made known to a registry. -/
inductive Registration where
  /-- An analyzer. -/
  | analyzer (analyzer : Analyzer)
  /-- A factory of adapters. -/
  | factory (factory : AdapterFactory)

namespace Registration

/-- The analyzer, if it is one. -/
def analyzer? : Registration → Option Analyzer
  | .analyzer added => some added
  | .factory _ => none

/-- The factory, if it is one. -/
def factory? : Registration → Option AdapterFactory
  | .analyzer _ => none
  | .factory added => some added

end Registration

namespace Registry

/-- The registry that knows one thing more. -/
def register (registry : Registry) : Registration → Registry
  | .analyzer analyzer => registry.addAnalyzer analyzer
  | .factory factory => registry.addFactory factory

/-- The registry after some registrations, in order. -/
def ofRegistrations (registrations : List Registration) : Registry :=
  registrations.foldl register empty

/-- What is at hand is a run of registrations. -/
theorem ofRegistrations_builtin :
    ofRegistrations [.analyzer .python, .analyzer .rust, .factory .snapshot,
      .factory .standardInput] = builtin := rfl

/-- A last registration. -/
theorem ofRegistrations_append_singleton (registrations : List Registration)
    (registration : Registration) :
    ofRegistrations (registrations ++ [registration]) =
      (ofRegistrations registrations).register registration := by
  unfold ofRegistrations
  rw [List.foldl_append, List.foldl_cons, List.foldl_nil]

/-- The analyzers that were registered, in order. -/
def analyzersOf (registrations : List Registration) : List Analyzer :=
  registrations.filterMap Registration.analyzer?

/-- The factories that were registered, in order. -/
def factoriesOf (registrations : List Registration) : List AdapterFactory :=
  registrations.filterMap Registration.factory?

section Append

variable (registrations : List Registration) (analyzer : Analyzer) (factory : AdapterFactory)

/-- An analyzer is registered behind the others. -/
theorem analyzersOf_append_analyzer :
    analyzersOf (registrations ++ [.analyzer analyzer]) =
      analyzersOf registrations ++ [analyzer] := List.filterMap_append

/-- A factory is no analyzer. -/
theorem analyzersOf_append_factory :
    analyzersOf (registrations ++ [.factory factory]) = analyzersOf registrations :=
  List.filterMap_append.trans (List.append_nil _)

/-- A factory is registered behind the others. -/
theorem factoriesOf_append_factory :
    factoriesOf (registrations ++ [.factory factory]) =
      factoriesOf registrations ++ [factory] := List.filterMap_append

/-- An analyzer is no factory. -/
theorem factoriesOf_append_analyzer :
    factoriesOf (registrations ++ [.analyzer analyzer]) = factoriesOf registrations :=
  List.filterMap_append.trans (List.append_nil _)

end Append

/-- The extensions of an analyzer, in small letters. -/
def extensionKeys (analyzer : Analyzer) : List String := analyzer.extensions.map lowerAscii

/-- The factory that was registered last for a scheme, in letters of any case. -/
def lastFactory? (registrations : List Registration) (scheme : String) : Option AdapterFactory :=
  (factoriesOf registrations).findRev? fun factory =>
    lowerAscii factory.scheme = lowerAscii scheme

/-- What a registry knows after some registrations. -/
structure Reflects (registrations : List Registration) (registry : Registry) : Prop where
  /-- The analyzers are those that were registered. -/
  analyzers : registry.analyzers = analyzersOf registrations
  /-- Extensions lead to analyzers, in small letters. -/
  extensions : IsIndex extensionKeys registry.analyzers registry.byExtension
  /-- Interpreters lead to analyzers, as they are listed. -/
  interpreters : IsIndex Analyzer.interpreters registry.analyzers registry.byInterpreter
  /-- The factories are sorted by scheme, and none has the scheme of another. -/
  ascending : Json.Ascending registry.factories
  /-- A scheme in small letters leads to the factory that was registered last for it. -/
  factories : ∀ scheme, registry.factories.lookup scheme =
    (factoriesOf registrations).findRev? fun factory => lowerAscii factory.scheme = scheme

/-- Nothing is known before the first registration. -/
theorem reflects_empty : Reflects [] empty where
  analyzers := rfl
  extensions := IsIndex.nil extensionKeys
  interpreters := IsIndex.nil Analyzer.interpreters
  ascending := List.Pairwise.nil
  factories _ := rfl

/-- One more registration is known with the others. -/
theorem Reflects.register {registrations : List Registration} {registry : Registry}
    (h : Reflects registrations registry) (registration : Registration) :
    Reflects (registrations ++ [registration]) (registry.register registration) := by
  cases registration with
  | analyzer added =>
    have after : (registry.register (.analyzer added)).analyzers = registry.analyzers ++ [added] :=
      rfl
    exact
      { analyzers := by rw [after, h.analyzers, analyzersOf_append_analyzer]
        extensions := h.extensions.append added
        interpreters := h.interpreters.append added
        ascending := h.ascending
        factories := fun scheme => by
          have kept : (registry.register (.analyzer added)).factories = registry.factories := rfl
          rw [kept, h.factories, factoriesOf_append_analyzer] }
  | factory added =>
    have after : (registry.register (.factory added)).analyzers = registry.analyzers := rfl
    exact
      { analyzers := by rw [after, h.analyzers, analyzersOf_append_factory]
        extensions := h.extensions
        interpreters := h.interpreters
        ascending := Json.ascending_insertMember h.ascending
        factories := fun scheme => by
          -- The new factory is the last one of its own scheme, and of no other.
          have set : (registry.register (.factory added)).factories.lookup scheme =
              if scheme = lowerAscii added.scheme then some added
              else registry.factories.lookup scheme := Json.lookup_insertMember _ _ _ _
          rw [set, h.factories, factoriesOf_append_factory, findRev?_append_singleton]
          exact if_congr (eq_comm.trans decide_eq_true_iff.symm) rfl rfl }

/-- What a registry knows after a run of registrations can be told from the run. -/
theorem reflects_ofRegistrations (registrations : List Registration) :
    Reflects registrations (ofRegistrations registrations) := by
  induction registrations using List.reverseRecOn with
  | nil => exact reflects_empty
  | append_singleton registrations registration ih =>
    rw [ofRegistrations_append_singleton]
    exact ih.register registration

end Registry

end CodeDelta
