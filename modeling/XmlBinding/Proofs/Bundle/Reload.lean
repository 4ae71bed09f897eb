import XmlBinding.Proofs.Bundle.Loaded

/-!
# Bundles that are saved and loaded again

Whatever calls a builder accepts, the bundle that it makes is loaded back from an empty directory
that it was saved into, less the documents that are not named as schema documents: they are saved,
but not looked for. In a directory that holds another bundle already, documents at other paths
stay, and so does a manifest if the new bundle has none.
-/

namespace XmlBinding

/-! ### Builders -/

namespace BundleBuilder

/-- A call that writes to a builder. -/
inductive Call where
  | setDescriptor (descriptor : Descriptor)
  | addSchema (path : Path) (text : String)
  | addCompiled (native : NativeId)
  /-- Ask for a place for the source text of a native type. -/
  | nativeSource (native : NativeId)
  | close

/-- Make a call. -/
def perform (b : BundleBuilder) : Call → Except Error BundleBuilder
  | .setDescriptor descriptor => b.setDescriptor descriptor
  | .addSchema path text => b.addSchema path text
  | .addCompiled native => b.addCompiled native
  | .nativeSource native => do
    b.nativeSource native
    return b
  | .close => .ok b.close

/-- Make calls one after the other, all of which have to be accepted. -/
def performAll (b : BundleBuilder) (calls : List Call) : Except Error BundleBuilder :=
  calls.foldlM perform b

end BundleBuilder

namespace Bundle

variable {documents more : List SchemaDocument}

/-! ### Documents in place of others -/

/-- No two documents have the same path. -/
def AreDistinct (documents : List SchemaDocument) : Prop :=
  documents.Pairwise fun s t ↦ s.path.components ≠ t.path.components

private theorem AreDistinct.replaceDocument (h : AreDistinct documents) (s : SchemaDocument) :
    AreDistinct (replaceDocument documents s) := by
  unfold AreDistinct Bundle.replaceDocument
  rw [List.pairwise_append]
  refine ⟨h.filter _, List.pairwise_singleton _ _, fun t ht u hu ↦ ?_⟩
  obtain rfl := List.mem_singleton.mp hu
  simpa using (List.mem_filter.mp ht).2

/-- The latest document of each path. -/
def latest (documents : List SchemaDocument) : List SchemaDocument :=
  documents.foldl replaceDocument []

/-- Documents that are added one after the other leave those at other paths. -/
theorem foldl_replaceDocument (documents more : List SchemaDocument) :
    more.foldl replaceDocument documents =
      documents.filter (fun t ↦ more.all fun s ↦ t.path.components ≠ s.path.components) ++
        latest more := by
  unfold latest
  induction more generalizing documents with
  | nil => simp
  | cons s more ih =>
    rw [List.foldl_cons, List.foldl_cons, ih, ih (replaceDocument [] s), ← List.append_assoc]
    congr 1
    simp only [Bundle.replaceDocument, List.filter_append, List.filter_filter, List.filter_nil,
      List.nil_append, List.all_cons]
    congr 2
    funext t
    exact Bool.and_comm _ _

private theorem mem_of_mem_foldl {t : SchemaDocument}
    (h : t ∈ more.foldl replaceDocument documents) : t ∈ documents ∨ t ∈ more := by
  induction more generalizing documents with
  | nil => exact .inl h
  | cons s more ih =>
    rcases ih h with h | h
    · rcases mem_replaceDocument.mp h with ⟨h, -⟩ | rfl
      · exact .inl h
      · exact .inr List.mem_cons_self
    · exact .inr (List.mem_cons_of_mem s h)

private theorem areDistinct_foldl (h : AreDistinct documents) (more : List SchemaDocument) :
    AreDistinct (more.foldl replaceDocument documents) := by
  induction more generalizing documents with
  | nil => exact h
  | cons s more ih => exact ih (h.replaceDocument s)

/-- Of documents with different paths each is the latest. -/
theorem latest_of_areDistinct (h : AreDistinct documents) : latest documents = documents := by
  induction documents with
  | nil => rfl
  | cons s documents ih =>
    obtain ⟨hs, hrest⟩ := List.pairwise_cons.mp h
    have hkept : [s].filter (fun t ↦ documents.all fun u ↦ t.path.components ≠ u.path.components) =
        [s] := by
      simpa using hs
    have hlatest : latest (s :: documents) = documents.foldl replaceDocument [s] := rfl
    rw [hlatest, foldl_replaceDocument, hkept, ih hrest]
    rfl

end Bundle

namespace BundleBuilder

open XmlBinding.Bundle

/-- The documents of a builder were parsed, and no two have the same path. -/
structure IsSound (b : BundleBuilder) : Prop where
  parsed : ∀ s ∈ b.schemas, s.IsParsed
  distinct : AreDistinct b.schemas

/-- A builder is sound to begin with. -/
theorem isSound_empty : empty.IsSound := ⟨by simp [empty], List.Pairwise.nil⟩

/-- What is accepted goes on behind the check for it. -/
theorem of_writable {α : Type} {b : BundleBuilder} {next : Except Error α} {a : α}
    (h : (do b.writable; next) = .ok a) : next = .ok a := by
  unfold writable at h
  split at h
  · cases h
  · exact h

/-- A call that is accepted keeps a builder sound. -/
theorem IsSound.perform {b b' : BundleBuilder} (h : b.IsSound) {call : Call}
    (hcall : b.perform call = .ok b') : b'.IsSound := by
  cases call with
  | setDescriptor descriptor =>
    cases of_writable hcall
    exact ⟨h.parsed, h.distinct⟩
  | addSchema path text =>
    have hcall := of_writable hcall
    cases hparse : SchemaDocument.parse path text with
    | error e => rw [hparse] at hcall; cases hcall
    | ok s =>
      rw [hparse] at hcall
      cases hcall
      obtain rfl := (SchemaDocument.parse_cases hparse).2.1
      refine ⟨fun t ht ↦ ?_, h.distinct.replaceDocument s⟩
      rcases mem_replaceDocument.mp ht with ⟨ht, -⟩ | rfl
      · exact h.parsed t ht
      · exact SchemaDocument.isParsed_of_parse hparse
  | addCompiled native =>
    cases of_writable hcall
    split <;> exact ⟨h.parsed, h.distinct⟩
  | nativeSource native => cases hcall
  | close =>
    cases hcall
    exact ⟨h.parsed, h.distinct⟩

/-- A builder is sound after any calls that it accepts. -/
theorem IsSound.performAll {b b' : BundleBuilder} (h : b.IsSound) {calls : List Call}
    (hcalls : b.performAll calls = .ok b') : b'.IsSound := by
  induction calls generalizing b with
  | nil =>
    cases hcalls
    exact h
  | cons call calls ih =>
    unfold BundleBuilder.performAll at hcalls
    rw [List.foldlM_cons] at hcalls
    cases hcall : b.perform call with
    | error e => rw [hcall] at hcalls; cases hcalls
    | ok b₁ => exact ih (h.perform hcall) (by rw [hcall] at hcalls; exact hcalls)

end BundleBuilder

/-! ### Saved and loaded -/

/-- What two documents share if they are the same but for the spelling of their paths. -/
def SchemaDocument.content (s : SchemaDocument) : List PathComponent × Option String × String :=
  (s.path.components, s.targetNamespace, s.text)

private theorem SchemaDocument.IsParsed.content_settled {s : SchemaDocument} (h : s.IsParsed) :
    s.settled.content = s.content := by
  simp [content, SchemaDocument.settled, h.names.ofNames.components_eq, h.names.components_eq]

private theorem SchemaDocument.IsParsed.names_settled {s : SchemaDocument} (h : s.IsParsed) :
    s.settled.names = s.names := by
  have hnames := h.names.ofNames.names?
  simp only [SchemaDocument.names, SchemaDocument.settled] at hnames ⊢
  rw [hnames]
  rfl

namespace Bundle

variable {d d' : Disk} {directory : Path} {root : Place} {documents : List SchemaDocument}
  {compiled : List NativeId}

/-- A directory with nothing in it. -/
def IsEmptyDirectory (d : Disk) (directory : Path) : Prop :=
  ∃ root, d.place directory = .ok root ∧ d.item? root = some .directory ∧
    ∀ names, names ≠ [] → d.item? (root ++ names) = none

private theorem holds_of_isEmptyDirectory (hproper : d.IsProper)
    (h : IsEmptyDirectory d directory) : ∃ root, Holds d directory root [] [] := by
  obtain ⟨root, hplace, hdirectory, hnone⟩ := h
  exact ⟨root,
    { isProper := hproper
      place_eq := hplace
      isDirectory := hdirectory
      parsed := by simp
      document := by simp
      nothingElse := fun names octets hitem ↦ by simp [hnone] at hitem
      manifest := by simp
      noManifest := by simp [hnone] }⟩

/-- Saving a bundle into an empty directory. -/
theorem holds_save (hproper : d.IsProper) (hempty : IsEmptyDirectory d directory) {b : Bundle}
    (hb : ∀ s ∈ b.schemas, s.IsParsed) (hsave : (b.save directory).run.run d = (.ok (), d')) :
    ∃ root, Holds d' directory root (latest b.schemas) b.compiled ∧
      Describes d' directory b.descriptor := by
  obtain ⟨root, hholds⟩ := holds_of_isEmptyDirectory hproper hempty
  have hcompiled : (if b.compiled.isEmpty then [] else b.compiled) = b.compiled := by
    cases b.compiled <;> rfl
  have hsaved := hholds.save hb hsave
  rw [hcompiled] at hsaved
  exact ⟨root, hsaved⟩

/-- The directory is loaded as a bundle of the given parts, the documents in the order of their
paths, however the disk lists its items. -/
def LoadsAs (d : Disk) (directory : Path) (descriptor : Descriptor)
    (documents : List SchemaDocument) (compiled : List NativeId) : Prop :=
  ∃ found : List SchemaDocument, (found.Pairwise fun s t ↦ comesBefore s.names t.names) ∧
    (found.map SchemaDocument.content).Perm (documents.map SchemaDocument.content) ∧
    ∀ d', d.items.Perm d'.items →
      load d' directory = .ok ⟨some directory, descriptor, found, compiled⟩

private theorem Holds.loadsAs (h : Holds d directory root documents compiled)
    (hdistinct : AreDistinct documents) {descriptor : Descriptor}
    (hdescribes : Describes d directory descriptor) (hclark : descriptor.IsClark) :
    LoadsAs d directory descriptor (named documents) compiled := by
  have hnames : (documents.map (·.names)).Nodup :=
    List.pairwise_map.mpr (hdistinct.imp_of_mem fun hs ht hne heq ↦
      hne (((h.parsed _ hs).components_eq_iff (h.parsed _ ht)).mpr heq))
  have hmem {s : SchemaDocument} (hs : s ∈ inOrder (named documents)) : s.IsParsed :=
    h.parsed s (List.mem_of_mem_filter ((inOrder_perm (named documents)).mem_iff.mp hs))
  refine ⟨(inOrder (named documents)).map (·.settled), ?_, ?_, fun d' hperm ↦ ?_⟩
  · have hsorted := pairwise_mergeSort ((named documents).map SchemaDocument.names)
    rw [← map_names_inOrder] at hsorted
    refine List.pairwise_map.mpr ((List.pairwise_map.mp hsorted).imp_of_mem fun hs ht hle ↦ ?_)
    rwa [(hmem hs).names_settled, (hmem ht).names_settled]
  · have hcontent : (inOrder (named documents)).map (SchemaDocument.content ∘ (·.settled)) =
        (inOrder (named documents)).map SchemaDocument.content :=
      List.map_congr_left fun s hs ↦ (hmem hs).content_settled
    rw [List.map_map, hcontent]
    exact (inOrder_perm (named documents)).map _
  · -- The disk in another order holds the same.
    have hkeeps := Disk.keeps_of_perm h.isProper hperm fun _ ↦ False
    exact (h.keep hkeeps (fun _ ↦ id) id).load hnames (hdescribes.keep h.place_eq hkeeps id) hclark

/-- Saving a bundle over what a directory holds. -/
theorem Holds.loadsAs_save (h : Holds d directory root documents compiled)
    (hdistinct : AreDistinct documents) {b : Bundle} (hb : ∀ s ∈ b.schemas, s.IsParsed)
    (hclark : b.descriptor.IsClark) (hsave : (b.save directory).run.run d = (.ok (), d')) :
    LoadsAs d' directory b.descriptor (named (b.schemas.foldl replaceDocument documents))
      (if b.compiled.isEmpty then compiled else b.compiled) := by
  obtain ⟨hholds, hdescribes⟩ := h.save hb hsave
  exact hholds.loadsAs (areDistinct_foldl hdistinct b.schemas) hdescribes hclark

/-- A directory is loaded in one way only. -/
theorem LoadsAs.unique {descriptor descriptor' : Descriptor} {documents' : List SchemaDocument}
    {compiled' : List NativeId} (h : LoadsAs d directory descriptor documents compiled)
    (h' : LoadsAs d directory descriptor' documents' compiled') :
    (documents.map SchemaDocument.content).Perm (documents'.map SchemaDocument.content) ∧
      compiled = compiled' := by
  obtain ⟨found, -, hfound, hload⟩ := h
  obtain ⟨found', -, hfound', hload'⟩ := h'
  have heq := (hload d (.refl _)).symm.trans (hload' d (.refl _))
  simp only [Except.ok.injEq, Bundle.mk.injEq] at heq
  obtain ⟨-, -, rfl, rfl⟩ := heq
  exact ⟨hfound.symm.trans hfound', rfl⟩

/-! ### The main results -/

/-- Whatever calls a builder accepts, if its bundle is saved into an empty directory, the directory
is loaded as the bundle again, less the documents that are not named as schema documents, provided
that the qualified names of its descriptor can be written. -/
theorem save_loadsAs {calls : List BundleBuilder.Call} {builder : BundleBuilder}
    (hcalls : BundleBuilder.empty.performAll calls = .ok builder)
    (hclark : builder.descriptor.IsClark) (hproper : d.IsProper)
    (hempty : IsEmptyDirectory d directory)
    (hsave : (builder.toBundle.save directory).run.run d = (.ok (), d')) :
    LoadsAs d' directory builder.descriptor (named builder.schemas) builder.compiled := by
  have hsound := BundleBuilder.isSound_empty.performAll hcalls
  have hschemas : latest builder.toBundle.schemas = builder.schemas :=
    latest_of_areDistinct hsound.distinct
  obtain ⟨root, hholds, hdescribes⟩ := holds_save hproper hempty hsound.parsed hsave
  rw [hschemas] at hholds
  exact hholds.loadsAs hsound.distinct hdescribes hclark

end Bundle

namespace Demo

/-- The text of a schema document. -/
def schemaText : String :=
  "<xs:schema xmlns:xs=\"http://www.w3.org/2001/XMLSchema\" targetNamespace=\"urn:demo\"/>"

/-- The schema document at a path. -/
def schemaAt (path : String) : SchemaDocument := ⟨⟨path⟩, some "urn:demo", schemaText⟩

/-- A descriptor with an element. -/
def descriptor : Descriptor :=
  ⟨[], [⟨⟨"urn:demo", "point"⟩, ⟨⟨"demo.Point"⟩, ⟨"urn:demo", "Point"⟩⟩⟩]⟩

/-- Calls that write two documents, one of them not named as a schema document. -/
def calls : List BundleBuilder.Call :=
  [.setDescriptor descriptor, .addSchema ⟨"notes.txt"⟩ schemaText,
    .addSchema ⟨"geometry/demo.xsd"⟩ schemaText, .addCompiled ⟨"demo.Point"⟩, .close]

/-- What the calls make. -/
def builder : BundleBuilder :=
  ⟨descriptor, [schemaAt "notes.txt", schemaAt "geometry/demo.xsd"], [⟨"demo.Point"⟩], true⟩

/-- The path of a directory. -/
def directory : Path := ⟨"b"⟩

/-- A disk with nothing but the directory. -/
def disk : Disk := ⟨[(["b"], .directory)]⟩

/-- The disk with a bundle saved on it. -/
def saved (b : Bundle) (d : Disk) : Disk := ((b.save directory).run.run d).2

private theorem save_eq {b : Bundle} {d : Disk} (h : ((b.save directory).run.run d).1 = .ok ()) :
    (b.save directory).run.run d = (.ok (), saved b d) :=
  Prod.ext h rfl

private theorem isClark_descriptor : descriptor.IsClark := by decide +kernel

private theorem isProper_disk : disk.IsProper := by
  simp [Disk.IsProper, disk]

private theorem isEmptyDirectory_disk : Bundle.IsEmptyDirectory disk directory := by
  refine ⟨["b"], by decide, rfl, fun names hne ↦ ?_⟩
  simp [Disk.item?, disk, hne]

/-- The text is read at any path. -/
theorem parse_schemaText {path : String} (h : (Path.mk path).isInside) :
    SchemaDocument.parse ⟨path⟩ schemaText = .ok (schemaAt path) := by
  have hread : SchemaDocument.parse ⟨"demo.xsd"⟩ schemaText = .ok (schemaAt "demo.xsd") := by
    decide +kernel
  exact SchemaDocument.parse_of_isInside hread h

private theorem isParsed_notes : (schemaAt "notes.txt").IsParsed := parse_schemaText (by decide)

private theorem isParsed_demo :
    (schemaAt "geometry/demo.xsd").IsParsed := parse_schemaText (by decide)

private theorem isParsed_other : (schemaAt "other.xsd").IsParsed := parse_schemaText (by decide)

private theorem performAll_calls : BundleBuilder.empty.performAll calls = .ok builder := by
  have hnotes : SchemaDocument.parse ⟨"notes.txt"⟩ schemaText = _ := isParsed_notes
  have hdemo : SchemaDocument.parse ⟨"geometry/demo.xsd"⟩ schemaText = _ := isParsed_demo
  simp only [BundleBuilder.performAll, calls, List.foldlM_cons, List.foldlM_nil,
    BundleBuilder.perform, BundleBuilder.addSchema, hnotes, hdemo]
  rfl

private theorem schemas_builder : ∀ s ∈ builder.schemas, s.IsParsed := by
  simp [builder, isParsed_notes, isParsed_demo]

private theorem not_hasExtension_notes : ¬ (schemaAt "notes.txt").HasExtension := by decide

private theorem hasExtension_demo : (schemaAt "geometry/demo.xsd").HasExtension := by decide

private theorem hasExtension_other : (schemaAt "other.xsd").HasExtension := by decide

private theorem named_builder : Bundle.named builder.schemas = [schemaAt "geometry/demo.xsd"] := by
  simp [Bundle.named, builder, not_hasExtension_notes, hasExtension_demo]

private theorem save_builder : (builder.toBundle.save directory).run.run disk =
    (.ok (), saved builder.toBundle disk) :=
  save_eq (by decide +kernel)

end Demo

namespace Bundle

variable {d d' : Disk} {directory : Path}

/-- Two documents are saved, and the one that is named as a schema document is loaded. -/
theorem save_loadsAs_demo :
    LoadsAs (Demo.saved Demo.builder.toBundle Demo.disk) Demo.directory Demo.descriptor
      [Demo.schemaAt "geometry/demo.xsd"] [⟨"demo.Point"⟩] := by
  rw [← Demo.named_builder]
  exact save_loadsAs Demo.performAll_calls Demo.isClark_descriptor Demo.isProper_disk
    Demo.isEmptyDirectory_disk Demo.save_builder

/-- Not every document that is saved is loaded. -/
theorem not_save_loadsAs_all :
    ¬ ∀ {calls : List BundleBuilder.Call} {builder : BundleBuilder} {d d' : Disk}
        {directory : Path},
      BundleBuilder.empty.performAll calls = .ok builder → builder.descriptor.IsClark →
      d.IsProper → IsEmptyDirectory d directory →
      (builder.toBundle.save directory).run.run d = (.ok (), d') →
      LoadsAs d' directory builder.descriptor builder.schemas builder.compiled := by
  intro h
  have hall := h Demo.performAll_calls Demo.isClark_descriptor Demo.isProper_disk
    Demo.isEmptyDirectory_disk Demo.save_builder
  have hdistinct := (BundleBuilder.isSound_empty.performAll Demo.performAll_calls).distinct
  have hlatest : latest Demo.builder.toBundle.schemas = Demo.builder.schemas :=
    latest_of_areDistinct hdistinct
  obtain ⟨root, hholds, hdescribes⟩ := holds_save Demo.isProper_disk Demo.isEmptyDirectory_disk
    Demo.schemas_builder Demo.save_builder
  rw [hlatest] at hholds
  have hnamed := hholds.loadsAs hdistinct hdescribes Demo.isClark_descriptor
  rw [Demo.named_builder] at hnamed
  exact absurd (hall.unique hnamed).1.length_eq (by decide)

/-- Of two bundles that are saved into the same directory, the second is loaded, with what it does
not replace of the first: documents at other paths, and a manifest if it has none itself. -/
theorem save_save_loadsAs {first second : Bundle} {d₁ : Disk}
    (hfirst : ∀ s ∈ first.schemas, s.IsParsed ∧ s.HasExtension)
    (hsecond : ∀ s ∈ second.schemas, s.IsParsed ∧ s.HasExtension)
    (hclark : second.descriptor.IsClark)
    (hproper : d.IsProper) (hempty : IsEmptyDirectory d directory)
    (hsave₁ : (first.save directory).run.run d = (.ok (), d₁))
    (hsave₂ : (second.save directory).run.run d₁ = (.ok (), d')) :
    LoadsAs d' directory second.descriptor
      ((latest first.schemas).filter
          (fun s ↦ second.schemas.all fun t ↦ s.path.components ≠ t.path.components) ++
        latest second.schemas)
      (if second.compiled.isEmpty then first.compiled else second.compiled) := by
  obtain ⟨root, hholds, -⟩ := holds_save hproper hempty (fun s hs ↦ (hfirst s hs).1) hsave₁
  -- None of the documents is left out.
  have hnamed : named (second.schemas.foldl replaceDocument (latest first.schemas)) =
      second.schemas.foldl replaceDocument (latest first.schemas) := by
    refine List.filter_eq_self.mpr fun s hs ↦ decide_eq_true ?_
    rcases mem_of_mem_foldl hs with hs | hs
    · rcases mem_of_mem_foldl hs with hs | hs
      · cases hs
      · exact (hfirst s hs).2
    · exact (hsecond s hs).2
  rw [← foldl_replaceDocument, ← hnamed]
  exact hholds.loadsAs_save (areDistinct_foldl .nil _) (fun s hs ↦ (hsecond s hs).1) hclark hsave₂

end Bundle

namespace Demo

/-- A bundle with a document and a native type. -/
def first : Bundle := ⟨none, descriptor, [schemaAt "geometry/demo.xsd"], [⟨"demo.Point"⟩]⟩

/-- A bundle with another document. -/
def second : Bundle := ⟨none, .empty, [schemaAt "other.xsd"], []⟩

private theorem isClark_second : second.descriptor.IsClark := fun _ h ↦ absurd h List.not_mem_nil

private theorem schemas_first : ∀ s ∈ first.schemas, s.IsParsed ∧ s.HasExtension := by
  simp [first, isParsed_demo, hasExtension_demo]

private theorem schemas_second : ∀ s ∈ second.schemas, s.IsParsed ∧ s.HasExtension := by
  simp [second, isParsed_other, hasExtension_other]

private theorem save_first : (first.save directory).run.run disk = (.ok (), saved first disk) :=
  save_eq (by decide +kernel)

private theorem save_second : (second.save directory).run.run (saved first disk) =
    (.ok (), saved second (saved first disk)) :=
  save_eq (by decide +kernel)

end Demo

namespace Bundle

/-- The document and the native type of the first bundle are loaded with the second. -/
theorem save_save_loadsAs_demo :
    LoadsAs (Demo.saved Demo.second (Demo.saved Demo.first Demo.disk)) Demo.directory .empty
      [Demo.schemaAt "geometry/demo.xsd", Demo.schemaAt "other.xsd"] [⟨"demo.Point"⟩] := by
  have hschemas : (latest Demo.first.schemas).filter
        (fun s ↦ Demo.second.schemas.all fun t ↦ s.path.components ≠ t.path.components) ++
      latest Demo.second.schemas =
        [Demo.schemaAt "geometry/demo.xsd", Demo.schemaAt "other.xsd"] := by
    decide
  rw [← hschemas]
  exact save_save_loadsAs Demo.schemas_first Demo.schemas_second Demo.isClark_second
    Demo.isProper_disk Demo.isEmptyDirectory_disk Demo.save_first Demo.save_second

/-- A bundle that is saved over another does not replace it. -/
theorem not_save_save_loadsAs_second :
    ¬ ∀ {first second : Bundle} {d d₁ d' : Disk} {directory : Path},
      (∀ s ∈ first.schemas, s.IsParsed ∧ s.HasExtension) →
      (∀ s ∈ second.schemas, s.IsParsed ∧ s.HasExtension) → second.descriptor.IsClark →
      d.IsProper → IsEmptyDirectory d directory →
      (first.save directory).run.run d = (.ok (), d₁) →
      (second.save directory).run.run d₁ = (.ok (), d') →
      LoadsAs d' directory second.descriptor second.schemas second.compiled := by
  intro h
  have hsecond := h Demo.schemas_first Demo.schemas_second Demo.isClark_second
    Demo.isProper_disk Demo.isEmptyDirectory_disk Demo.save_first Demo.save_second
  obtain ⟨root, hholds, -⟩ := holds_save Demo.isProper_disk Demo.isEmptyDirectory_disk
    (fun s hs ↦ (Demo.schemas_first s hs).1) Demo.save_first
  have hboth := hholds.loadsAs_save (areDistinct_foldl .nil _)
    (fun s hs ↦ (Demo.schemas_second s hs).1) Demo.isClark_second Demo.save_second
  exact absurd (hsecond.unique hboth).2 (by decide)

end Bundle

end XmlBinding
