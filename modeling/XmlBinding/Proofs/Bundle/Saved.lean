import XmlBinding.Bundle.Store
import XmlBinding.Proofs.Bundle.Disk

/-!
# What saving leaves behind

`Bundle.Holds` relates a directory to the schema documents and native types in it. Saving a bundle
keeps this relation: each document takes the place of any of the same path, and everything else in
the directory stays. So the relation holds after any row of bundles saved one over the other.
-/

namespace XmlBinding

namespace SchemaDocument

/-- The names that the path of a document comes down to. -/
def names (s : SchemaDocument) : List String := s.path.names?.getD []

/-- The document is what its path and text are read as. -/
def IsParsed (s : SchemaDocument) : Prop := parse s.path s.text = .ok s

/-- A document that was parsed has the path and the text that it was parsed of, and the path stays
inside. -/
theorem parse_cases {path : Path} {text : String} {s : SchemaDocument}
    (h : parse path text = .ok s) : path.isInside ∧ s.path = path ∧ s.text = text := by
  unfold parse at h
  split at h
  · cases h
  · next hinside =>
    split at h
    · cases h
    · split at h
      · cases h
      · split at h
        · cases h
          exact ⟨by simpa using hinside, rfl, rfl⟩
        · cases h

/-- What was parsed is parsed again to the same. -/
theorem isParsed_of_parse {path : Path} {text : String} {s : SchemaDocument}
    (h : parse path text = .ok s) : s.IsParsed := by
  obtain ⟨-, rfl, rfl⟩ := parse_cases h
  exact h

/-- At another path that may be, a text is read as the same. -/
theorem parse_of_isInside {path path' : Path} {text : String} {s : SchemaDocument}
    (h : parse path text = .ok s) (hpath' : path'.isInside) :
    parse path' text = .ok { s with path := path' } := by
  have hinside : ¬ ¬ path.isInside := not_not_intro (parse_cases h).1
  have hinside' : ¬ ¬ path'.isInside := not_not_intro hpath'
  rw [parse, if_neg hinside] at h
  rw [parse, if_neg hinside']
  split at h
  · cases h
  · split at h
    · cases h
    · split at h
      · next hname =>
        cases h
        exact if_pos hname
      · cases h

variable {s : SchemaDocument}

/-- The path of a document goes down by its names. -/
theorem IsParsed.names (h : s.IsParsed) : s.path.Names s.names := by
  obtain ⟨names, hnames, hpath⟩ := Path.names_of_isInside (parse_cases h).1
  rwa [SchemaDocument.names, hnames]

/-- Documents are told apart by their names. -/
theorem IsParsed.components_eq_iff {t : SchemaDocument} (hs : s.IsParsed) (ht : t.IsParsed) :
    s.path.components = t.path.components ↔ s.names = t.names := by
  rw [hs.names.components_eq, ht.names.components_eq]
  refine ⟨fun h ↦ ?_, fun h ↦ by rw [h]⟩
  exact List.map_injective_iff.mpr (fun _ _ ↦ PathComponent.name.inj) h

/-- The document under the path that its names alone are written as. -/
def settled (s : SchemaDocument) : SchemaDocument := { s with path := .ofNames s.names }

/-- Under the path of its names alone the document is parsed as settled. -/
theorem IsParsed.settled (h : s.IsParsed) :
    parse (.ofNames s.names) s.text = .ok s.settled :=
  parse_of_isInside h h.names.ofNames.isInside

/-- The file of the document is named as the files of schema documents are. -/
def HasExtension (s : SchemaDocument) : Prop :=
  s.names.getLast?.bind Path.extension? = some schemaExtension

instance : DecidablePred HasExtension := fun s ↦
  inferInstanceAs (Decidable (s.names.getLast?.bind Path.extension? = some schemaExtension))

end SchemaDocument

namespace Bundle

/-- A document in place of any of the same path. -/
def replaceDocument (documents : List SchemaDocument) (s : SchemaDocument) :
    List SchemaDocument :=
  documents.filter (fun t ↦ t.path.components ≠ s.path.components) ++ [s]

/-- The directory of the schemas is one name down. -/
theorem names_schemaDirectory : schemaDirectory.Names ["schemas"] :=
  Path.names_of_components (by decide) (by decide)

private theorem names_descriptorFile : descriptorFile.Names ["binding-config.json"] :=
  Path.names_of_components (by decide) (by decide)

/-- The manifest is one name down. -/
theorem names_manifestFile : manifestFile.Names ["manifest.json"] :=
  Path.names_of_components (by decide) (by decide)

/-- What a directory holds of a bundle, its descriptor aside: these documents and no others, and a
manifest of these native types, or none. -/
structure Holds (d : Disk) (directory : Path) (root : Place) (documents : List SchemaDocument)
    (compiled : List NativeId) : Prop where
  isProper : d.IsProper
  place_eq : d.place directory = .ok root
  isDirectory : d.item? root = some .directory
  parsed : ∀ s ∈ documents, s.IsParsed
  document : ∀ s ∈ documents,
    d.readFile ((directory.join schemaDirectory).join (.ofNames s.names)) =
      .ok (Text.Utf8.encode s.text.toList)
  nothingElse : ∀ names octets, d.item? (root ++ "schemas" :: names) = some (.file octets) →
    ∃ s ∈ documents, s.names = names
  manifest : compiled ≠ [] → d.readFile (directory.join manifestFile) =
    .ok (Text.Utf8.encode (manifestJson compiled).pretty.toList)
  noManifest : compiled = [] → ∀ octets, d.item? (root ++ ["manifest.json"]) ≠ some (.file octets)

variable {d d' : Disk} {directory : Path} {root : Place} {documents : List SchemaDocument}
  {compiled : List NativeId}

/-- A path by names in the directory of schema documents leads there. -/
theorem eq_of_place_document {q : Path} {names : List String} {place : Place} (hq : q.Names names)
    (hroot : d.place directory = .ok root)
    (h : d.place ((directory.join schemaDirectory).join q) = .ok place) :
    place = root ++ "schemas" :: names := by
  obtain ⟨schemas, hschemas⟩ := Disk.exists_place_of_join hq.not_isRooted h
  rw [Disk.eq_of_place_join hq hschemas h,
    Disk.eq_of_place_join names_schemaDirectory hroot hschemas, List.append_assoc]
  rfl

/-- The place of a document that is there. -/
theorem Holds.place_document (h : Holds d directory root documents compiled) {s : SchemaDocument}
    (hs : s ∈ documents) :
    d.place ((directory.join schemaDirectory).join (.ofNames s.names)) =
      .ok (root ++ "schemas" :: s.names) := by
  obtain ⟨place, hplace, -⟩ := Disk.readFile_eq_ok.mp (h.document s hs)
  rw [hplace, eq_of_place_document (h.parsed s hs).names.ofNames h.place_eq hplace]

/-- The place of a manifest that is there. -/
theorem Holds.place_manifest (h : Holds d directory root documents compiled) (hne : compiled ≠ []) :
    d.place (directory.join manifestFile) = .ok (root ++ ["manifest.json"]) :=
  (Disk.of_readFile_join names_manifestFile h.place_eq (h.manifest hne)).1

/-- What changes neither a document nor the manifest keeps all that a directory holds. -/
theorem Holds.keep {changed : Place → Prop} (h : Holds d directory root documents compiled)
    (hkeeps : Disk.Keeps changed d d') (hschemas : ∀ names, ¬ changed (root ++ "schemas" :: names))
    (hmanifest : ¬ changed (root ++ ["manifest.json"])) :
    Holds d' directory root documents compiled where
  isProper := hkeeps.isProper h.isProper
  place_eq := hkeeps.place h.place_eq
  isDirectory := hkeeps.directory h.isDirectory
  parsed := h.parsed
  document s hs := hkeeps.readFile (h.place_document hs) (hschemas s.names) (h.document s hs)
  nothingElse names octets hitem :=
    h.nothingElse names octets ((hkeeps.file (hschemas names) octets).mp hitem)
  manifest hne := hkeeps.readFile (h.place_manifest hne) hmanifest (h.manifest hne)
  noManifest hempty octets hitem :=
    h.noManifest hempty octets ((hkeeps.file hmanifest octets).mp hitem)

/-! ### Steps of saving -/

/-- With another error, a step does the same. -/
theorem gives_adapt {α : Type} {m : Disk.Change α} {error : Obstacle → Error} {a : α} :
    Gives (m.adapt error) d a d' ↔ m.run.run d = (.ok a, d') := by
  have hrun : (m.adapt error).run.run d = ((m.run.run d).1.mapError error, (m.run.run d).2) := rfl
  rw [Gives, hrun]
  rcases m.run.run d with ⟨_ | _, d₁⟩
  · constructor <;> intro h <;> cases h
  · constructor <;> intro h <;> cases h <;> rfl

private theorem keeps_of_makeDirectories {p : Path} (h : Gives (makeDirectories p) d () d')
    (changed : Place → Prop) : Disk.Keeps changed d d' := by
  have hkeeps := Disk.keeps_makeDirectories changed p d
  rwa [gives_adapt.mp h] at hkeeps

private theorem writes_of_writeText {p : Path} {text : String} {error : IoFault → Error}
    (h : Gives (writeText p text error) d () d') :
    ∃ place, d.place p = .ok place ∧ Disk.Keeps (· = place) d d' ∧
      d'.item? place = some (.file (Text.Utf8.encode text.toList)) :=
  Disk.writeFile_eq_ok (gives_adapt.mp h)

/-- A document in place of another. -/
theorem mem_replaceDocument {s t : SchemaDocument} :
    t ∈ replaceDocument documents s ↔
      (t ∈ documents ∧ t.path.components ≠ s.path.components) ∨ t = s := by
  simp [replaceDocument]

/-- A place below the directory of schema documents. -/
def IsDocumentPlace (root place : Place) : Prop := ∃ names, place = root ++ "schemas" :: names

private theorem Holds.saveSchema (h : Holds d directory root documents compiled)
    {s : SchemaDocument}
    (hs : s.IsParsed) (hsave : Gives (saveSchema (directory.join schemaDirectory) s) d () d') :
    Holds d' directory root (replaceDocument documents s) compiled ∧
      Disk.Keeps (IsDocumentPlace root) d d' := by
  obtain ⟨⟨⟩, d₁, hmake, hwrite⟩ := gives_bind.mp hsave
  obtain ⟨place, hplace, hkeeps, hitem⟩ := writes_of_writeText hwrite
  have hmade := h.keep (keeps_of_makeDirectories hmake fun _ ↦ False) (fun _ ↦ id) id
  obtain rfl := eq_of_place_document hs.names hmade.place_eq hplace
  refine ⟨?_, (keeps_of_makeDirectories hmake _).trans (hkeeps.mono fun q hq ↦ ⟨s.names, hq⟩)⟩
  have hown := hkeeps.place (Disk.place_join_ofNames hs.names hplace)
  -- A document at another path has other names, and so a file of its own.
  have hother {t : SchemaDocument} (ht : t ∈ documents)
      (hne : t.path.components ≠ s.path.components) : t.names ≠ s.names :=
    fun hnames ↦ hne (((h.parsed t ht).components_eq_iff hs).mpr hnames)
  refine
    { isProper := hkeeps.isProper hmade.isProper
      place_eq := hkeeps.place hmade.place_eq
      isDirectory := hkeeps.directory hmade.isDirectory
      parsed := fun t ht ↦ ?_
      document := fun t ht ↦ ?_
      nothingElse := fun names octets hfile ↦ ?_
      manifest := fun hne ↦ ?_
      noManifest := fun hempty octets hfile ↦ ?_ }
  · rcases mem_replaceDocument.mp ht with ⟨ht, -⟩ | rfl
    · exact h.parsed t ht
    · exact hs
  · rcases mem_replaceDocument.mp ht with ⟨ht, hne⟩ | rfl
    · refine hkeeps.readFile (hmade.place_document ht) (fun heq ↦ ?_) (hmade.document t ht)
      exact hother ht hne (by simpa using heq)
    · exact Disk.readFile_eq_ok.mpr ⟨_, hown, hitem⟩
  · by_cases hnames : names = s.names
    · exact ⟨s, mem_replaceDocument.mpr (.inr rfl), hnames.symm⟩
    · have hold := (hkeeps.file (fun heq ↦ hnames (by simpa using heq)) octets).mp hfile
      obtain ⟨t, ht, rfl⟩ := hmade.nothingElse names octets hold
      refine ⟨t, mem_replaceDocument.mpr (.inl ⟨ht, fun heq ↦ hnames ?_⟩), rfl⟩
      exact ((h.parsed t ht).components_eq_iff hs).mp heq
  · exact hkeeps.readFile (hmade.place_manifest hne) (by simp) (hmade.manifest hne)
  · exact hmade.noManifest hempty octets ((hkeeps.file (by simp) octets).mp hfile)

private theorem Holds.saveSchemas (h : Holds d directory root documents compiled)
    {more : List SchemaDocument} (hmore : ∀ s ∈ more, s.IsParsed)
    (hsave : Gives (more.forM (Bundle.saveSchema (directory.join schemaDirectory))) d () d') :
    Holds d' directory root (more.foldl replaceDocument documents) compiled ∧
      Disk.Keeps (IsDocumentPlace root) d d' := by
  induction more generalizing d documents with
  | nil =>
    obtain ⟨-, rfl⟩ := gives_pure.mp hsave
    exact ⟨h, .refl _ _⟩
  | cons s more ih =>
    obtain ⟨⟨⟩, d₁, hfirst, hrest⟩ := gives_bind.mp hsave
    obtain ⟨hholds, hkeeps⟩ := h.saveSchema (hmore s List.mem_cons_self) hfirst
    obtain ⟨hholds', hkeeps'⟩ := ih hholds (fun t ht ↦ hmore t (List.mem_cons_of_mem s ht)) hrest
    exact ⟨hholds', hkeeps.trans hkeeps'⟩

private theorem Holds.saveManifest (h : Holds d directory root documents compiled)
    {more : List NativeId} (hmore : more ≠ []) (hsave : Gives
      (writeText (directory.join manifestFile) (manifestJson more).pretty .io) d () d') :
    Holds d' directory root documents more ∧ Disk.Keeps (· = root ++ ["manifest.json"]) d d' := by
  obtain ⟨place, hplace, hkeeps, hitem⟩ := writes_of_writeText hsave
  obtain rfl := Disk.eq_of_place_join names_manifestFile h.place_eq hplace
  refine ⟨?_, hkeeps⟩
  exact
    { isProper := hkeeps.isProper h.isProper
      place_eq := hkeeps.place h.place_eq
      isDirectory := hkeeps.directory h.isDirectory
      parsed := h.parsed
      document := fun s hs ↦ hkeeps.readFile (h.place_document hs) (by simp) (h.document s hs)
      nothingElse := fun names octets hfile ↦
        h.nothingElse names octets ((hkeeps.file (by simp) octets).mp hfile)
      manifest := fun _ ↦ Disk.readFile_eq_ok.mpr ⟨_, hkeeps.place hplace, hitem⟩
      noManifest := fun hempty ↦ absurd hempty hmore }

/-- The directory holds a descriptor. -/
def Describes (d : Disk) (directory : Path) (descriptor : Descriptor) : Prop :=
  d.readFile (directory.join descriptorFile) = .ok (Text.Utf8.encode descriptor.toText.toList)

/-- What does not change the descriptor keeps it. -/
theorem Describes.keep {changed : Place → Prop} {descriptor : Descriptor}
    (h : Describes d directory descriptor) (hroot : d.place directory = .ok root)
    (hkeeps : Disk.Keeps changed d d') (hchanged : ¬ changed (root ++ ["binding-config.json"])) :
    Describes d' directory descriptor :=
  hkeeps.readFile (Disk.of_readFile_join names_descriptorFile hroot h).1 hchanged h

/-- Saving a bundle: its documents take the place of those of the same paths, and its manifest the
place of any other, if it has native types at all. -/
theorem Holds.save (h : Holds d directory root documents compiled) {b : Bundle}
    (hb : ∀ s ∈ b.schemas, s.IsParsed) (hsave : Gives (b.save directory) d () d') :
    Holds d' directory root (b.schemas.foldl replaceDocument documents)
        (if b.compiled.isEmpty then compiled else b.compiled) ∧
      Describes d' directory b.descriptor := by
  obtain ⟨⟨⟩, d₁, hmake, hsave⟩ := gives_bind.mp hsave
  obtain ⟨⟨⟩, d₂, hdescriptor, hsave⟩ := gives_bind.mp hsave
  obtain ⟨⟨⟩, d₃, hschemas, hmanifest⟩ := gives_bind.mp hsave
  have h₁ := h.keep (keeps_of_makeDirectories hmake fun _ ↦ False) (fun _ ↦ id) id
  obtain ⟨place, hplace, hkeeps₂, hitem⟩ := writes_of_writeText hdescriptor
  obtain rfl := Disk.eq_of_place_join names_descriptorFile h₁.place_eq hplace
  have h₂ := h₁.keep hkeeps₂ (by simp) (by simp)
  have hdescribes : Describes d₂ directory b.descriptor :=
    Disk.readFile_eq_ok.mpr ⟨_, hkeeps₂.place hplace, hitem⟩
  obtain ⟨h₃, hkeeps₃⟩ := h₂.saveSchemas hb hschemas
  have hdescribes₃ := hdescribes.keep h₂.place_eq hkeeps₃ (by simp [IsDocumentPlace])
  -- Without native types nothing is written, and an old manifest stays.
  by_cases hempty : b.compiled.isEmpty
  · rw [if_neg (not_not_intro hempty)] at hmanifest
    obtain ⟨-, rfl⟩ := gives_pure.mp hmanifest
    rw [if_pos hempty]
    exact ⟨h₃, hdescribes₃⟩
  · rw [if_pos hempty] at hmanifest
    obtain ⟨h₄, hkeeps₄⟩ := h₃.saveManifest (by simpa using hempty) hmanifest
    rw [if_neg hempty]
    exact ⟨h₄, hdescribes₃.keep h₃.place_eq hkeeps₄ (by simp)⟩

end Bundle

end XmlBinding
