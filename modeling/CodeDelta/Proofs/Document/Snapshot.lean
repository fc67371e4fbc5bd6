import CodeDelta.Registry.Builtin
import CodeDelta.Render.Structure
import CodeDelta.Proofs.Diff.FileOrder
import CodeDelta.Proofs.Document.Structures
import CodeDelta.Proofs.Files.Workspace
import CodeDelta.Proofs.Text.Utf8

/-!
# Snapshots

A structure that is shown as a document can be saved and loaded again (`Structure.load_render`).
Loading gives the structure itself; loaded from a file it has that file's path unless it had one,
which no comparison sees. The text is that of the structure's document in one of the two layouts,
perhaps with a line break behind it, and is decoded as the document itself (`Structure.load_write`);
what a file adds is that its octets are read as the text (`Adapter.snapshot_of_read`).
-/

namespace CodeDelta

open Json

/-- A structure compared with itself has no records. -/
theorem Structure.diff_self (structure_ : Structure) :
    structure_.diff structure_ = ⟨.zero, ⟨[], [], []⟩⟩ :=
  Alike.refl structure_

/-- Printing adds a line break or nothing. -/
theorem Render.exists_blanks_printed (text : String) :
    ∃ blanks, AreBlanks blanks ∧ printed text = text ++ String.ofList blanks := by
  unfold printed
  split
  · exact ⟨[], List.forall_mem_nil _, String.append_empty.symm⟩
  · exact ⟨['\n'], List.forall_mem_singleton.2 rfl, rfl⟩

/-- A structure is loaded from its document in either layout, with blanks behind it or without. -/
theorem Structure.load_write {structure_ : Structure} (fits : structure_.Fits)
    (levels : (Draft.ofValue structure_.toJson).depth ≤ maxDepth) (layout : Layout)
    {blanks : List Char} (h : AreBlanks blanks) :
    Structure.load (structure_.toJson.write layout ++ String.ofList blanks) = .ok structure_ := by
  unfold load
  rw [decodeText_write (Structure.decode .text) layout (isWhole_toJson fits) h,
    decode_toJson .text fits levels]
  rfl

/-- What is loaded from a file is the structure that its text writes, with a path. -/
theorem Adapter.snapshot_of_read {space : Workspace} {path text : String} {structure_ : Structure}
    (read : space.read path = .ok (Text.encodeUtf8 text.toList))
    (loads : Structure.load text = .ok structure_) :
    Adapter.snapshot path space =
      .ok { structure_ with path := structure_.path.or (some path) } := by
  have readText : space.readText path = .ok text := by
    unfold Workspace.readText
    rw [read]
    simp only [bind, Except.bind, Text.decodeUtf8_encodeUtf8, String.ofList_toList]
  unfold Adapter.snapshot
  rw [if_pos (Workspace.isPresent_of_read read), readText]
  simp only [bind, Except.bind, Except.mapError, loads]
  rfl

/-- A structure that is shown as a document, whether or not it was printed, is loaded as it was;
loaded from a file that holds the text, it has that file's path if it had none, and it compares as
equal from either side. -/
theorem Structure.load_render {structure_ : Structure} (fits : structure_.Fits)
    (levels : (Draft.ofValue structure_.toJson).depth ≤ maxDepth) {shown : Render.Options}
    (document : shown.format = .json) {text : String}
    (written : text = structure_.render shown ∨ text = Render.printed (structure_.render shown)) :
    Structure.load text = .ok structure_ ∧
    ∀ (space : Workspace) (path : String), space.read path = .ok (Text.encodeUtf8 text.toList) →
      ∃ loaded, Adapter.snapshot path space = .ok loaded ∧
        loaded = { structure_ with path := structure_.path.or (some path) } ∧
        structure_.diff loaded = ⟨.zero, ⟨[], [], []⟩⟩ ∧
        loaded.diff structure_ = ⟨.zero, ⟨[], [], []⟩⟩ := by
  have rendered : structure_.render shown = structure_.toJson.write shown.layout := by
    unfold render
    rw [document]
  have loads : Structure.load text = .ok structure_ := by
    rcases written with rfl | rfl
    · have plain := load_write fits levels shown.layout (List.forall_mem_nil _)
      rw [String.ofList_nil, String.append_empty] at plain
      rw [rendered]
      exact plain
    · obtain ⟨blanks, areBlanks, printed⟩ := Render.exists_blanks_printed (structure_.render shown)
      rw [printed, rendered]
      exact load_write fits levels shown.layout areBlanks
  refine ⟨loads, fun space path read => ?_⟩
  -- A comparison looks at the elements, which do not change with the path.
  have elements : ∀ category, Structure.elements category
      { structure_ with path := structure_.path.or (some path) } = structure_.elements category :=
    fun category => by cases category <;> rfl
  refine ⟨_, Adapter.snapshot_of_read read loads, rfl, ?_, ?_⟩
  · exact (diff_congr (fun _ => rfl) elements).trans structure_.diff_self
  · exact (diff_congr elements fun _ => rfl).trans structure_.diff_self

/-- A structure of an unknown kind, without a path, with the greatest line and count, texts that are
empty, escaped or of more than one byte to the letter, and a method of a method. -/
def Structure.sample : Structure where
  kind := .other
  path := none
  language := some ""
  fileCount := some 18446744073709551615
  skippedFiles := 0
  functions := [{ Element.named "größe" with line := some 4294967295, signature := some "" }]
  classes :=
    [{ Element.named "\"\\\n\x01" with
        bases := [""]
        methods := [{ Element.blank with methods := [Element.named "𝛼"], content := some "" }] }]
  imports := []

/-- The numbers of the structure fit their words. -/
theorem Structure.fits_sample : Structure.sample.Fits where
  fileCount := by decide
  skippedFiles := by decide
  elements category := by
    have named : (Element.named "𝛼").Fits :=
      ⟨by decide, by decide, by decide, List.forall_mem_nil _⟩
    cases category with
    | function =>
      exact List.forall_mem_singleton.2 ⟨by decide, by decide, by decide, List.forall_mem_nil _⟩
    | classDef =>
      exact List.forall_mem_singleton.2 ⟨by decide, by decide, by decide,
        List.forall_mem_singleton.2 ⟨by decide, by decide, by decide,
          List.forall_mem_singleton.2 named⟩⟩
    | importDecl => exact List.forall_mem_nil _

/-- The structure is loaded from its text on one line, and from a file that holds its text on many
lines it is loaded with the file's path. -/
theorem Structure.load_render_sample :
    Structure.load (Structure.sample.render ⟨.json, false, true⟩) = .ok Structure.sample ∧
    ∃ loaded,
      Adapter.snapshot "/saved.json" (.holding "saved.json"
        (Render.printed (Structure.sample.render ⟨.json, false, false⟩))) = .ok loaded ∧
      loaded = { Structure.sample with path := some "/saved.json" } ∧
      Structure.sample.diff loaded = ⟨.zero, ⟨[], [], []⟩⟩ ∧
      loaded.diff Structure.sample = ⟨.zero, ⟨[], [], []⟩⟩ := by
  have fits := Structure.fits_sample
  have levels : (Draft.ofValue Structure.sample.toJson).depth ≤ maxDepth := by decide
  obtain ⟨compact, -⟩ :=
    @Structure.load_render .sample fits levels ⟨.json, false, true⟩ rfl _ (.inl rfl)
  obtain ⟨-, pretty⟩ :=
    @Structure.load_render .sample fits levels ⟨.json, false, false⟩ rfl _ (.inr rfl)
  have names : ∀ name ∈ ["saved.json"], Path.IsName name := by decide
  have path : "/saved.json" = "/" ++ Path.join ["saved.json"] := by decide
  refine ⟨compact, pretty _ "/saved.json" ?_⟩
  rw [path]
  exact Workspace.read_of_descend? names (List.cons_ne_nil _ _) rfl

end CodeDelta
