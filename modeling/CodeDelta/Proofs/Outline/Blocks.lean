import CodeDelta.Outline.RustElements
import CodeDelta.Proofs.Text.FirstAppearance
import CodeDelta.Proofs.Text.Trim
import Mathlib.Algebra.GroupWithZero.Nat
import Mathlib.Data.List.Perm.Basic
import Mathlib.Tactic.SplitIfs

/-!
# Methods of implementing blocks

A block belongs to the type whose name is its key, which is what the text of its type says before
its arguments (`typeName_eq_iff`). The classes of a file are its declared types and, behind them,
one type for every key that holds methods and is not declared (`bareClasses`); the first class of a
name gets all blocks of that key in source order, and no other class gets any (`classes_ofFile`).
Every key that holds a method names a class, so the methods of the classes are as many as those that
stand in the bodies of traits and blocks.
-/

namespace CodeDelta.Outline.Rust

open Text (eraseDups_filter_cons foldl_append_new)

/-! ## Names -/

/-- Whether a name is what a text says before its arguments: it stands there with nothing but blanks
around it, and behind them the text ends or goes on with its first `<`. -/
def IsBareName (text name : List Char) : Prop :=
  ∃ before after rest, text = before ++ name ++ after ++ rest ∧
    ('<' ∉ before ++ name ++ after ∧ ∀ c ∈ rest.head?, c = '<') ∧
    (∀ c ∈ before ++ after, Text.isBlank c = true) ∧
    (∀ c ∈ name.head?, Text.isBlank c = false) ∧ ∀ c ∈ name.getLast?, Text.isBlank c = false

/-- Taking what stands before the first `<` cuts there or takes all. -/
theorem takeWhile_eq_iff {text front : List Char} :
    text.takeWhile (· != '<') = front ↔
      ∃ rest, text = front ++ rest ∧ '<' ∉ front ∧ ∀ c ∈ rest.head?, c = '<' := by
  constructor
  · rintro rfl
    refine ⟨text.dropWhile (· != '<'), List.takeWhile_append_dropWhile.symm, ?_, ?_⟩
    · intro inside
      exact absurd (List.mem_takeWhile_imp inside) (by decide)
    · intro c leads
      have first := List.head?_dropWhile_not (· != '<') text
      rw [leads] at first
      exact of_not_not (bne_iff_ne.not.1 (Bool.eq_false_iff.1 first))
  · rintro ⟨rest, rfl, free, leads⟩
    have nothing : rest.takeWhile (· != '<') = [] := by
      cases rest with
      | nil => rfl
      | cons c rest =>
        obtain rfl := leads c rfl
        rfl
    have all : ∀ c ∈ front, (c != '<') = true :=
      fun c inside => bne_iff_ne.2 fun same => free (same ▸ inside)
    rw [List.takeWhile_append_of_pos all, nothing, List.append_nil]

/-- The name of a type is what its text says before its arguments. -/
theorem typeName_eq_iff {text name : String} :
    typeName text = name ↔ IsBareName text.toList name.toList := by
  have spelled : typeName text = name ↔
      Text.trim (text.toList.takeWhile (· != '<')) = name.toList := by
    unfold typeName
    rw [← String.toList_inj, String.toList_ofList]
  rw [spelled, Text.trim_eq_iff]
  constructor
  · rintro ⟨before, after, front, blank, ends⟩
    obtain ⟨rest, whole, free, leads⟩ := takeWhile_eq_iff.1 front
    exact ⟨before, after, rest, whole, ⟨free, leads⟩, blank, ends⟩
  · rintro ⟨before, after, rest, whole, cut, blank, ends⟩
    exact ⟨before, after, takeWhile_eq_iff.2 ⟨rest, whole, cut⟩, blank, ends⟩

/-! ## Items, blocks and keys -/

/-- The functions and signatures directly in an item's body. -/
def bodyFunctions (item : SyntaxTree) : List SyntaxTree :=
  ((item.field? "body").map fun body => body.children.filter fun part =>
    part.kind = "function_item" ∨ part.kind = "function_signature_item").getD []

/-- The type that an item declares, without what blocks implement for it. A trait has the named
parts of its bounds as bases and the functions in its body as methods; no other type has any. -/
def declared (item : SyntaxTree) : Element :=
  { Element.blank with
    name := (item.fieldText? "name").getD ""
    line := some (item.firstRow + 1)
    lineCount := some (item.lastRow - item.firstRow + 1)
    bases := if item.kind = "trait_item" then
        ((item.field? "bounds").map fun bounds =>
          (bounds.children.filter SyntaxTree.isNamed).map fun bound => typeName bound.text).getD []
      else []
    methods := if item.kind = "trait_item" then (bodyFunctions item).map function else [] }

/-- The types that a file declares, in order. -/
def declaredTypes (file : SyntaxTree) : List Element :=
  (file.children.filter fun item =>
    item.kind ∈ ["struct_item", "enum_item", "union_item", "trait_item"]).map declared

/-- The keys of a file's blocks, in order. -/
def keys (file : SyntaxTree) : List String :=
  (file.children.filter fun item => item.kind = "impl_item").filterMap fun block =>
    (block.fieldText? "type").map typeName

/-- The blocks of a key, in order. -/
def blocksOf (file : SyntaxTree) (key : String) : List SyntaxTree :=
  file.children.filter fun item =>
    item.kind = "impl_item" ∧ (item.fieldText? "type").map typeName = some key

/-- The keys that no declared type has and whose blocks hold a method, in the order in which they
first appear. -/
def foreignKeys (file : SyntaxTree) : List String :=
  (keys file).eraseDups.filter fun key =>
    key ∉ (declaredTypes file).map Element.name ∧
      ∃ block ∈ blocksOf file key, bodyFunctions block ≠ []

/-- The classes of a file without what blocks implement: the declared types, then those of the keys
that no declared type has. -/
def bareClasses (file : SyntaxTree) : List Element :=
  declaredTypes file ++ (foreignKeys file).map .named

/-- A type with some blocks: their traits follow its bases, each once and only when it is none of
the bases, and the functions in their bodies follow its methods. -/
def implementing (blocks : List SyntaxTree) (type : Element) : Element :=
  { type with
    bases := type.bases ++ ((blocks.filterMap fun block =>
      (block.fieldText? "trait").map typeName).filter fun name => name ∉ type.bases).eraseDups
    methods := type.methods ++ (blocks.flatMap bodyFunctions).map function }

/-- Whether the functions in an item's body are methods: it is a trait, or a block for a type. The
grammar gives every block a type; an item of that kind without one has no key. -/
def holdsMethods (item : SyntaxTree) : Prop :=
  item.kind = "trait_item" ∨ item.kind = "impl_item" ∧ (item.field? "type").isSome

instance (item : SyntaxTree) : Decidable (holdsMethods item) :=
  inferInstanceAs (Decidable (_ ∨ _))

/-! ## Items and their elements -/

/-- The methods of an item are those of the functions in its body. -/
theorem methods_eq (item : SyntaxTree) : methods item = (bodyFunctions item).map function := by
  have same : isMethod = fun part =>
      decide (part.kind = "function_item" ∨ part.kind = "function_signature_item") := by
    funext part
    rw [Bool.eq_iff_iff]
    simp [isMethod]
  unfold methods bodyFunctions
  rw [same]
  cases item.field? "body" <;> rfl

/-- The element of a declaration. -/
theorem declaration_eq (item : SyntaxTree) : declaration item = declared item := by
  unfold declaration declared
  dsimp only
  rw [methods_eq]
  split_ifs <;> rfl

/-- The declarations among the items of a file. -/
theorem declaredTypes_eq (file : SyntaxTree) :
    (file.children.filter isDeclaration).map declaration = declaredTypes file := by
  unfold declaredTypes
  rw [funext declaration_eq]
  congr 1
  refine List.filter_congr fun item _ => ?_
  rw [Bool.eq_iff_iff]
  simp [isDeclaration, or_assoc]

/-- What a block implements for its key. -/
def forKey (key : String) (block : SyntaxTree) : Implementation :=
  ⟨key, (block.fieldText? "trait").map typeName, methods block⟩

/-- The keys of the blocks are what the text of their types says before the arguments. -/
theorem map_type_implementations (file : SyntaxTree) :
    (implementations file).map Implementation.type = keys file := by
  unfold implementations keys implementation?
  rw [List.map_filterMap, List.filterMap_filter]
  refine List.filterMap_congr fun item _ => ?_
  by_cases kind : item.kind = "impl_item"
  · rw [if_pos kind, if_pos (decide_eq_true kind), Option.map_map]
    rfl
  · rw [if_neg kind, if_neg (by simpa using kind)]
    rfl

/-- The blocks of a key are what those items implement. -/
theorem filter_implementations (file : SyntaxTree) (key : String) :
    ((implementations file).filter fun block => block.type = key) =
      (blocksOf file key).map (forKey key) := by
  unfold implementations blocksOf implementation?
  rw [List.filter_filterMap, ← List.filterMap_eq_map, List.filterMap_filter]
  refine List.filterMap_congr fun item _ => ?_
  by_cases kind : item.kind = "impl_item"
  · cases given : item.fieldText? "type" with
    | none => simp [kind]
    | some type =>
      -- The block is of the key exactly when the item is.
      by_cases named : typeName type = key
      · simp [kind, named, forKey]
      · simp [kind, named]
  · simp [kind]

/-- A block of a key is what one of those items implements. -/
theorem mem_implementations_iff {file : SyntaxTree} {block : Implementation} :
    block ∈ implementations file ↔
      ∃ item ∈ blocksOf file block.type, forKey block.type item = block := by
  rw [← List.mem_map, ← filter_implementations, List.mem_filter]
  exact (and_iff_left (decide_eq_true rfl)).symm

/-- A block implements methods exactly when there are functions in its body. -/
theorem methods_forKey_ne_nil_iff {key : String} {block : SyntaxTree} :
    (forKey key block).methods ≠ [] ↔ bodyFunctions block ≠ [] := by
  unfold forKey
  dsimp only
  rw [methods_eq, ne_eq, List.map_eq_nil_iff]

/-! ## Names in the order of their first appearance -/

/-- What a type gets from blocks. -/
theorem attach_map (key : String) (blocks : List SyntaxTree) (type : Element) :
    attach (blocks.map (forKey key)) type = implementing blocks type := by
  have held : (fun block => (forKey key block).methods) =
      fun block => (bodyFunctions block).map function := funext methods_eq
  unfold attach implementing addNames
  rw [foldl_append_new, List.filterMap_map, List.flatMap_map, held, List.map_flatMap]
  rfl

/-- A type gets nothing from no blocks. -/
theorem attach_nil (type : Element) : attach [] type = type := by
  -- An element holds elements, so it is equal to the record of its fields only case by case.
  cases type
  simp [attach, addNames]

/-- The keys of blocks that are new, in the order of their first appearance. -/
theorem typesOf_eq (seen : List String) (blocks : List Implementation) :
    typesOf seen blocks =
      ((blocks.map Implementation.type).filter fun name => name ∉ seen).eraseDups := by
  induction blocks generalizing seen with
  | nil => rfl
  | cons block rest ih =>
    rw [typesOf, List.map_cons]
    by_cases known : block.type ∈ seen
    · simp [known, ih]
    · rw [if_neg known, ih, eraseDups_filter_cons known]

/-- No key is given twice. -/
theorem nodup_typesOf (seen : List String) (blocks : List Implementation) :
    (typesOf seen blocks).Nodup := by
  induction blocks generalizing seen with
  | nil => exact List.nodup_nil
  | cons block rest ih =>
    rw [typesOf]
    split_ifs
    · exact ih seen
    · refine List.nodup_cons.2 ⟨?_, ih _⟩
      rw [typesOf_eq, List.mem_eraseDups, List.mem_filter]
      simp

/-! ## The class that gets the blocks of a key -/

variable {blocks : List Implementation}

/-- Types after others get blocks where none before them has their name. -/
theorem attachAll_append (seen : List String) (types others : List Element) :
    attachAll blocks seen (types ++ others) =
      attachAll blocks seen types ++
        attachAll blocks ((types.map Element.name).reverse ++ seen) others := by
  induction types generalizing seen with
  | nil => rfl
  | cons type rest ih =>
    simp only [List.cons_append, attachAll, ih, List.map_cons, List.reverse_cons, List.append_assoc,
      List.nil_append]

/-- A type gets the blocks of its name unless an earlier type has the name. -/
theorem attachAll_eq (seen : List String) (types : List Element) :
    attachAll blocks seen types = types.mapIdx fun place type =>
      if type.name ∈ seen ++ (types.take place).map Element.name then type
      else attach (blocks.filter fun block => block.type = type.name) type := by
  induction types generalizing seen with
  | nil => rfl
  | cons type rest ih =>
    rw [attachAll, ih, List.mapIdx_cons]
    refine congrArg₂ List.cons ?_ ?_
    · rw [List.take_zero, List.map_nil, List.append_nil]
      split_ifs
      · exact attach_nil type
      · rfl
    · -- The first name counts as seen below, and as an earlier name above.
      congr 1
      funext place other
      simp only [List.take_succ_cons, List.map_cons, List.mem_append, List.mem_cons, or_left_comm,
        or_assoc]

/-- Types of distinct new names and nothing else get the blocks of their names. -/
theorem attachAll_named {seen keys : List String} (distinct : keys.Nodup)
    (new : ∀ key ∈ keys, key ∉ seen) :
    attachAll blocks seen (keys.map .named) =
      keys.map fun key => attach (blocks.filter fun block => block.type == key) (.named key) := by
  induction keys generalizing seen with
  | nil => rfl
  | cons key rest ih =>
    obtain ⟨once, distinct⟩ := List.nodup_cons.1 distinct
    have unseen : (Element.named key).name ∉ seen := new key List.mem_cons_self
    rw [List.map_cons, attachAll, List.map_cons, if_neg unseen, ih distinct]
    · rfl
    · intro other ho
      have differs : other ≠ key := fun same => once (same ▸ ho)
      exact List.not_mem_cons_of_ne_of_not_mem differs (new other (List.mem_cons_of_mem _ ho))

/-- The keys of all blocks, in the order of their first appearance. -/
theorem typesOf_nil (blocks : List Implementation) :
    typesOf [] blocks = (blocks.map Implementation.type).eraseDups := by
  rw [typesOf_eq, List.filter_eq_self.2]
  simp

/-- No key is foreign twice. -/
theorem nodup_foreignKeys (file : SyntaxTree) : (foreignKeys file).Nodup := by
  unfold foreignKeys
  rw [← map_type_implementations, ← typesOf_nil]
  exact (nodup_typesOf [] _).filter _

/-- What makes a key foreign. -/
theorem mem_foreignKeys {file : SyntaxTree} {key : String} :
    key ∈ foreignKeys file ↔ key ∉ (declaredTypes file).map Element.name ∧
      ∃ block ∈ blocksOf file key, bodyFunctions block ≠ [] := by
  unfold foreignKeys
  rw [List.mem_filter, decide_eq_true_iff, List.mem_eraseDups, and_iff_right_iff_imp]
  rintro ⟨-, block, hb, -⟩
  obtain ⟨inFile, ofKey⟩ := List.mem_filter.1 hb
  obtain ⟨kind, named⟩ := of_decide_eq_true ofKey
  exact List.mem_filterMap.2 ⟨block, List.mem_filter.2 ⟨inFile, decide_eq_true kind⟩, named⟩

/-- The blocks of a key hold a method when one of those items does. -/
theorem any_implementations_iff {file : SyntaxTree} {key : String} :
    ((implementations file).any fun block => block.type == key && !block.methods.isEmpty) = true ↔
      ∃ block ∈ blocksOf file key, bodyFunctions block ≠ [] := by
  simp only [List.any_eq_true, Bool.and_eq_true, beq_iff_eq, Bool.not_eq_true', ← Bool.not_eq_true,
    List.isEmpty_iff]
  constructor
  · rintro ⟨block, inFile, rfl, holds⟩
    obtain ⟨item, ofKey, made⟩ := mem_implementations_iff.1 inFile
    exact ⟨item, ofKey, methods_forKey_ne_nil_iff.1 (made ▸ holds)⟩
  · rintro ⟨item, ofKey, holds⟩
    exact ⟨forKey key item, mem_implementations_iff.2 ⟨item, ofKey, rfl⟩, rfl,
      methods_forKey_ne_nil_iff.2 holds⟩

/-- The types made for keys that no declared type has. -/
theorem foreignTypes_eq (file : SyntaxTree) :
    foreignTypes (implementations file) ((declaredTypes file).map Element.name) =
      (foreignKeys file).map fun key =>
        attach ((implementations file).filter fun block => block.type == key) (.named key) := by
  unfold foreignTypes foreignKeys
  rw [typesOf_nil, map_type_implementations]
  congr 1
  refine List.filter_congr fun key _ => ?_
  rw [Bool.eq_iff_iff, Bool.and_eq_true, any_implementations_iff]
  simp

/-- The classes of a file are its bare ones with the blocks of their names. -/
theorem classes_eq (file : SyntaxTree) :
    classes file = attachAll (implementations file) [] (bareClasses file) := by
  have new : ∀ key ∈ foreignKeys file,
      key ∉ ((declaredTypes file).map Element.name).reverse ++ [] := by
    intro key hk
    rw [List.append_nil, List.mem_reverse]
    exact (mem_foreignKeys.1 hk).1
  unfold bareClasses
  rw [attachAll_append, attachAll_named (nodup_foreignKeys file) new, ← foreignTypes_eq,
    ← declaredTypes_eq]
  rfl

/-! ## No method is lost and none is given twice -/

/-- Every key with a method names a class. -/
theorem key_mem_bareClasses {file : SyntaxTree} {key : String} {block : SyntaxTree}
    (ofKey : block ∈ blocksOf file key) (holds : bodyFunctions block ≠ []) :
    key ∈ (bareClasses file).map Element.name := by
  unfold bareClasses
  rw [List.map_append, List.map_map, List.mem_append]
  by_cases known : key ∈ (declaredTypes file).map Element.name
  · exact Or.inl known
  · have foreign : key ∈ foreignKeys file := mem_foreignKeys.2 ⟨known, block, ofKey, holds⟩
    exact Or.inr (List.mem_map.2 ⟨key, foreign, rfl⟩)

/-- Blocks of new keys are those of the first of them, when it is new, and those of the others. -/
theorem perm_blocks_cons (blocks : List Implementation) (name : String) (names seen : List String) :
    ((if name ∈ seen then [] else blocks.filter fun block => block.type == name) ++
        blocks.filter fun block => block.type ∈ names ∧ block.type ∉ name :: seen).Perm
      (blocks.filter fun block => block.type ∈ name :: names ∧ block.type ∉ seen) := by
  refine List.Perm.trans (List.Perm.of_eq ?_)
    (List.filter_append_perm (fun block => block.type == name) _)
  rw [List.filter_filter, List.filter_filter]
  -- The blocks on the right are cut into those of the first key and the others.
  congr 1
  · split_ifs with known
    · refine (List.filter_eq_nil_iff.2 fun block _ ofName => ?_).symm
      grind
    · refine List.filter_congr fun block _ => ?_
      grind
  · refine List.filter_congr fun block _ => ?_
    grind

/-- Types with blocks hold their own methods and those of all blocks whose key is a new name of
theirs. -/
theorem methods_attachAll (seen : List String) (types : List Element) :
    ((attachAll blocks seen types).flatMap Element.methods).Perm
      (types.flatMap Element.methods ++
        (blocks.filter fun block =>
          block.type ∈ types.map Element.name ∧ block.type ∉ seen).flatMap
            Implementation.methods) := by
  induction types generalizing seen with
  | nil => simp [attachAll]
  | cons type rest ih =>
    rw [attachAll, List.flatMap_cons, List.flatMap_cons, List.append_assoc]
    have shared := (perm_blocks_cons blocks type.name (rest.map Element.name) seen).flatMap_right
      Implementation.methods
    rw [List.flatMap_append] at shared
    generalize (if type.name ∈ seen then [] else
      blocks.filter fun block => block.type == type.name) = own at shared ⊢
    have ownFirst : (attach own type).methods =
      type.methods ++ own.flatMap Implementation.methods := rfl
    rw [ownFirst, List.append_assoc]
    refine List.Perm.append_left _ ?_
    -- The methods of the first type's blocks move behind the own methods of the later types.
    have later := (ih (type.name :: seen)).append_left (own.flatMap Implementation.methods)
    exact (later.trans (List.perm_append_comm_assoc _ _ _)).trans (shared.append_left _)

/-- Only a trait is declared with methods. -/
theorem methods_declaration (item : SyntaxTree) :
    (declaration item).methods = if item.kind = "trait_item" then methods item else [] := by
  rw [declaration_eq, methods_eq]
  rfl

/-- An item that is a block declares no type, and it is one that holds methods. -/
theorem holdsMethods_of_implementation? {item : SyntaxTree} {block : Implementation}
    (h : implementation? item = some block) :
    isDeclaration item = false ∧ holdsMethods item ∧ block.methods = methods item := by
  unfold implementation? at h
  split_ifs at h with kind
  obtain ⟨type, stands, rfl⟩ := Option.map_eq_some_iff.1 h
  refine ⟨by simp [isDeclaration, kind], Or.inr ⟨kind, ?_⟩, rfl⟩
  exact (Option.isSome_map).symm.trans (Option.isSome_of_eq_some stands)

/-- An item that is no block holds methods when it is a trait. -/
theorem holdsMethods_iff_of_implementation? {item : SyntaxTree} (h : implementation? item = none) :
    holdsMethods item ↔ item.kind = "trait_item" := by
  refine or_iff_left ?_
  rintro ⟨kind, typed⟩
  rw [implementation?, if_pos kind, Option.map_eq_none_iff] at h
  exact absurd ((Option.isSome_map).trans typed) (Option.not_isSome_iff_eq_none.2 h)

/-- The methods that declared types and blocks hold are those in the bodies of traits and blocks. -/
theorem perm_methods_items (items : List SyntaxTree) :
    (((items.filter isDeclaration).map declaration).flatMap Element.methods ++
        (items.filterMap implementation?).flatMap Implementation.methods).Perm
      ((items.filter fun item => holdsMethods item).flatMap methods) := by
  induction items with
  | nil => exact List.Perm.refl _
  | cons item rest ih =>
    -- An item is a block, or a trait, or it holds no method whatever it declares.
    cases made : implementation? item with
    | some block =>
      obtain ⟨undeclared, holds, own⟩ := holdsMethods_of_implementation? made
      rw [List.filter_cons, if_neg (by simp [undeclared]), List.filterMap_cons, made,
        List.filter_cons, if_pos (decide_eq_true holds), List.flatMap_cons, List.flatMap_cons, own]
      exact (List.perm_append_comm_assoc _ _ _).trans (ih.append_left _)
    | none =>
      have holds := holdsMethods_iff_of_implementation? made
      rw [List.filterMap_cons, made]
      by_cases trait : item.kind = "trait_item"
      · have declares : isDeclaration item = true := by simp [isDeclaration, trait]
        rw [List.filter_cons_of_pos declares, List.map_cons, List.filter_cons,
          if_pos (decide_eq_true (holds.2 trait)), List.flatMap_cons, List.flatMap_cons,
          methods_declaration, if_pos trait, List.append_assoc]
        exact ih.append_left _
      · have nothing : (declaration item).methods = [] := by
          rw [methods_declaration, if_neg trait]
        have others : (item :: rest).filter (fun item => holdsMethods item) =
            rest.filter fun item => holdsMethods item :=
          List.filter_cons_of_neg (by simpa using mt holds.1 trait)
        rw [others, List.filter_cons]
        split_ifs
        · rwa [List.map_cons, List.flatMap_cons, nothing, List.nil_append]
        · exact ih

/-- Types that are not declared have no methods but those of their blocks. -/
theorem methods_bareClasses (file : SyntaxTree) :
    (bareClasses file).flatMap Element.methods = (declaredTypes file).flatMap Element.methods := by
  have none : ((foreignKeys file).map Element.named).flatMap Element.methods = [] := by
    rw [List.flatMap_map]
    exact List.flatMap_eq_nil_iff.2 fun _ _ => rfl
  unfold bareClasses
  rw [List.flatMap_append, none, List.append_nil]

/-- The blocks whose key names a class hold all methods that blocks hold. -/
theorem perm_methods_blocks (file : SyntaxTree) :
    (((implementations file).filter fun block =>
        block.type ∈ (bareClasses file).map Element.name ∧ block.type ∉ []).flatMap
          Implementation.methods).Perm
      ((implementations file).flatMap Implementation.methods) := by
  have whole := (List.filter_append_perm (fun block : Implementation =>
    decide (block.type ∈ (bareClasses file).map Element.name ∧ block.type ∉ []))
      (implementations file)).flatMap_right Implementation.methods
  rw [List.flatMap_append] at whole
  -- The blocks that are left out hold nothing.
  refine List.Perm.trans (List.Perm.of_eq ?_) whole
  refine List.self_eq_append_right.2 (List.flatMap_eq_nil_iff.2 fun block hb => ?_)
  obtain ⟨inFile, unnamed⟩ := List.mem_filter.1 hb
  obtain ⟨item, ofKey, made⟩ := mem_implementations_iff.1 inFile
  by_contra holds
  have named := key_mem_bareClasses ofKey (methods_forKey_ne_nil_iff.1 (made ▸ holds))
  simp [named] at unnamed

/-- The classes of a file hold the methods in the bodies of its traits and blocks, each once. -/
theorem perm_methods_classes (file : SyntaxTree) :
    ((classes file).flatMap Element.methods).Perm
      ((file.children.filter fun item => holdsMethods item).flatMap methods) := by
  rw [classes_eq]
  refine (methods_attachAll [] (bareClasses file)).trans ?_
  rw [methods_bareClasses, ← declaredTypes_eq]
  exact ((perm_methods_blocks file).append_left _).trans (perm_methods_items file.children)

/-- The classes of a file are its declared types and, behind them, one for every key whose blocks
hold a method and that no declared type has. The first of a name gets the methods of all blocks of
that key, in order, behind its own, and the traits that are none of its bases, each once; a later
one of the name gets nothing. Every block with a method is of the key of some class, so the classes
hold as many methods as there are functions and signatures in the bodies of traits and blocks. A
method stands under the name and on the line of its function, and a key is what the text of a type
says before its arguments. -/
theorem classes_ofFile (path : String) (file : SyntaxTree) :
    (ofFile path file).classes = ((bareClasses file).mapIdx fun place type =>
      if type.name ∈ ((bareClasses file).take place).map Element.name then type
      else implementing (blocksOf file type.name) type) ∧
    (∀ item ∈ file.children, item.kind = "impl_item" → bodyFunctions item ≠ [] →
      ∀ type ∈ item.fieldText? "type", typeName type ∈ (bareClasses file).map Element.name) ∧
    (((ofFile path file).classes.map fun owner => owner.methods.length).sum =
      ((file.children.filter fun item => holdsMethods item).map fun item =>
        (bodyFunctions item).length).sum) ∧
    (∀ item, (function item).name = (item.fieldText? "name").getD "" ∧
      (function item).line = some (item.firstRow + 1)) ∧
    ∀ text name, typeName text = name ↔ IsBareName text.toList name.toList := by
  refine ⟨?_, ?_, ?_, fun item => ⟨rfl, rfl⟩, fun text name => typeName_eq_iff⟩
  · refine ((classes_eq file).trans (attachAll_eq [] (bareClasses file))).trans ?_
    simp only [filter_implementations, attach_map, List.nil_append]
  · intro item inFile kind holds type given
    have ofKey : item ∈ blocksOf file (typeName type) :=
      List.mem_filter.2 ⟨inFile, decide_eq_true ⟨kind, Option.map_eq_some_iff.2 ⟨type, given, rfl⟩⟩⟩
    exact key_mem_bareClasses ofKey holds
  · have kept := (perm_methods_classes file).length_eq
    simp only [List.length_flatMap, methods_eq, List.length_map] at kept
    exact kept

end CodeDelta.Outline.Rust
