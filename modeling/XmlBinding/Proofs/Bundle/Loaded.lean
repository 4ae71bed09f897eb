import XmlBinding.Proofs.Binding.Encoded
import XmlBinding.Proofs.Bundle.Saved
import XmlBinding.Proofs.Text.Utf8

/-!
# What is loaded back

A directory that holds schema documents, a manifest and a descriptor is loaded as a bundle of just
these. The documents come in the order of their paths, whatever the order in which the disk lists
its files.
-/

namespace XmlBinding

/-! ### Texts -/

private theorem Disk.readText_of_readFile {d : Disk} {p : Path} {text : String}
    (h : d.readFile p = .ok (Text.Utf8.encode text.toList)) : d.readText p = .ok text := by
  simp [readText, h, Text.Utf8.decode_encode]

private theorem Bundle.manifestOfJson?_manifestJson (compiled : List NativeId) :
    (Json.parse? (manifestJson compiled).pretty).bind manifestOfJson? = some compiled := by
  have hplain : Json.Plain 2 (manifestJson compiled) := by
    refine .object fun m hm ↦ ?_
    obtain rfl := List.mem_singleton.mp hm
    exact .array (by simpa using fun n _ ↦ Json.Plain.string 0 _)
  have hitems : Json.items? NativeId.ofJson?
      (.array (compiled.map fun native ↦ .string native.text)) = some compiled :=
    Json.items?_map (fun native : NativeId ↦ .string native.text) fun _ _ ↦ rfl
  rw [Json.parse?_pretty hplain.1, Option.bind_some]
  simp [manifestOfJson?, manifestJson, Json.record?, Json.valuesOf_cons, Json.optional?, hitems]

namespace Bundle

/-! ### The order of documents -/

private theorem comesBefore_cons {s t : String} {a b : Place} :
    comesBefore (s :: a) (t :: b) ↔ s < t ∨ s = t ∧ comesBefore a b := by
  simp [comesBefore]

private theorem comesBefore_trans {a b c : Place} (hab : comesBefore a b) (hbc : comesBefore b c) :
    comesBefore a c := by
  induction a generalizing b c with
  | nil => rfl
  | cons s a ih =>
    cases b with
    | nil => cases hab
    | cons t b =>
      cases c with
      | nil => cases hbc
      | cons u c =>
        rw [comesBefore_cons] at hab hbc ⊢
        obtain hst | ⟨rfl, hab⟩ := hab
        · obtain htu | ⟨rfl, -⟩ := hbc
          · exact .inl (String.lt_trans hst htu)
          · exact .inl hst
        · obtain htu | ⟨rfl, hbc⟩ := hbc
          · exact .inl htu
          · exact .inr ⟨rfl, ih hab hbc⟩

private theorem comesBefore_total (a b : Place) : comesBefore a b ∨ comesBefore b a := by
  induction a generalizing b with
  | nil => exact .inl rfl
  | cons s a ih =>
    cases b with
    | nil => exact .inr rfl
    | cons t b =>
      rw [comesBefore_cons, comesBefore_cons]
      by_cases hst : s < t
      · exact .inl (.inl hst)
      by_cases hts : t < s
      · exact .inr (.inl hts)
      obtain rfl := String.le_antisymm (String.not_lt.mp hts) (String.not_lt.mp hst)
      exact (ih b).imp (fun h ↦ .inr ⟨rfl, h⟩) fun h ↦ .inr ⟨rfl, h⟩

private theorem comesBefore_antisymm {a b : Place} (hab : comesBefore a b) (hba : comesBefore b a) :
    a = b := by
  induction a generalizing b with
  | nil =>
    cases b with
    | nil => rfl
    | cons t b => cases hba
  | cons s a ih =>
    cases b with
    | nil => cases hab
    | cons t b =>
      rw [comesBefore_cons] at hab hba
      obtain hst | ⟨rfl, hab⟩ := hab
      · obtain hts | ⟨rfl, -⟩ := hba
        · exact absurd hts (String.lt_asymm hst)
        · exact absurd hst (String.lt_irrefl _)
      · obtain hts | ⟨-, hba⟩ := hba
        · exact absurd hts (String.lt_irrefl _)
        · rw [ih hab hba]

/-- Names are put in order. -/
theorem pairwise_mergeSort (xs : List Place) :
    (xs.mergeSort comesBefore).Pairwise fun a b ↦ comesBefore a b := by
  have htotal (a b : Place) : (comesBefore a b || comesBefore b a) = true := by
    simpa using comesBefore_total a b
  exact @List.pairwise_mergeSort Place comesBefore (fun _ _ _ ↦ comesBefore_trans) htotal xs

/-- Names that are put in order come out the same from any order. -/
private theorem mergeSort_congr {xs ys : List Place} (h : xs.Perm ys) :
    xs.mergeSort comesBefore = ys.mergeSort comesBefore := by
  have hperm : (xs.mergeSort comesBefore).Perm (ys.mergeSort comesBefore) :=
    ((List.mergeSort_perm ..).trans h).trans (List.mergeSort_perm ..).symm
  exact hperm.eq_of_pairwise (fun _ _ _ _ ↦ comesBefore_antisymm) (pairwise_mergeSort xs)
    (pairwise_mergeSort ys)

/-- Documents in the order of their names. -/
def inOrder (documents : List SchemaDocument) : List SchemaDocument :=
  documents.mergeSort fun s t ↦ comesBefore s.names t.names

/-- Ordering documents loses none of them. -/
theorem inOrder_perm (documents : List SchemaDocument) : (inOrder documents).Perm documents :=
  List.mergeSort_perm ..

/-- The names of documents in order are their names in order. -/
theorem map_names_inOrder (documents : List SchemaDocument) :
    (inOrder documents).map SchemaDocument.names =
      (documents.map SchemaDocument.names).mergeSort comesBefore :=
  List.map_mergeSort fun _ _ _ _ ↦ rfl

/-! ### Loading -/

variable {d : Disk} {directory : Path} {root : Place} {documents : List SchemaDocument}
  {compiled : List NativeId}

/-- The documents among others whose files are named as those of schema documents are. -/
def named (documents : List SchemaDocument) : List SchemaDocument :=
  documents.filter (·.HasExtension)

/-- The places of the documents that are looked for, of those that a directory holds. -/
private theorem Holds.schemaPlaces (h : Holds d directory root documents compiled)
    (hdistinct : (documents.map (·.names)).Nodup) :
    schemaPlaces d (directory.join schemaDirectory) =
      ((named documents).map (·.names)).mergeSort comesBefore := by
  unfold Bundle.schemaPlaces
  cases hplace : d.place (directory.join schemaDirectory) with
  | error obstacle =>
    -- There is no way into the directory, by which any document would be found.
    cases documents with
    | nil => simp [named]
    | cons s documents =>
      have hnames := (h.parsed s List.mem_cons_self).names.ofNames
      obtain ⟨next, hnext⟩ := Disk.exists_place_of_join hnames.not_isRooted
        (h.place_document List.mem_cons_self)
      rw [hplace] at hnext
      cases hnext
  | ok place =>
    obtain rfl := Disk.eq_of_place_join names_schemaDirectory h.place_eq hplace
    have hfound := (Disk.nodup_filesBelow h.isProper (root ++ ["schemas"])).filter
      fun names ↦ names.getLast?.bind Path.extension? = some schemaExtension
    have hheld : ((named documents).map (·.names)).Nodup :=
      hdistinct.sublist (List.filter_sublist.map _)
    refine mergeSort_congr ?_
    rw [List.perm_ext_iff_of_nodup hfound hheld]
    intro names
    have hfile (octets : List UInt8) :
        (names, octets) ∈ d.filesBelow (root ++ ["schemas"]) ↔
          d.item? (root ++ "schemas" :: names) = some (.file octets) := by
      rw [Disk.mem_filesBelow, Disk.mem_items_iff h.isProper (by simp)]
      simp
    simp only [named, List.mem_filter, List.mem_map, Prod.exists, exists_and_right,
      exists_eq_right, decide_eq_true_eq, hfile]
    constructor
    · rintro ⟨⟨octets, hitem⟩, hextension⟩
      obtain ⟨s, hs, rfl⟩ := h.nothingElse names octets hitem
      exact ⟨s, ⟨hs, hextension⟩, rfl⟩
    · rintro ⟨s, ⟨hs, hextension⟩, rfl⟩
      obtain ⟨place, hplace, hitem⟩ := Disk.readFile_eq_ok.mp (h.document s hs)
      obtain rfl := Except.ok.inj ((h.place_document hs).symm.trans hplace)
      exact ⟨⟨_, hitem⟩, hextension⟩

private theorem Holds.loadSchema (h : Holds d directory root documents compiled)
    {s : SchemaDocument} (hs : s ∈ documents) :
    loadSchema d (directory.join schemaDirectory) s.names = .ok s.settled := by
  have htext := Disk.readText_of_readFile (h.document s hs)
  simp only [Bundle.loadSchema, htext, (h.parsed s hs).settled]

private theorem Describes.load {descriptor : Descriptor} (h : Describes d directory descriptor)
    (hclark : descriptor.IsClark) :
    Descriptor.load d (directory.join descriptorFile) = .ok descriptor := by
  simp [Descriptor.load, Disk.readText_of_readFile h, Descriptor.parse_toText hclark]

private theorem Holds.loadManifest (h : Holds d directory root documents compiled) :
    loadManifest d (directory.join manifestFile) = .ok compiled := by
  unfold Bundle.loadManifest
  by_cases hempty : compiled = []
  · have hfile : ¬ d.isFile (directory.join manifestFile) := by
      rw [Disk.isFile_iff]
      rintro ⟨octets, hread⟩
      have hitem := (Disk.of_readFile_join names_manifestFile h.place_eq hread).2
      exact h.noManifest hempty octets hitem
    rw [if_pos hfile, hempty]
  · have hread := h.manifest hempty
    have hfile : d.isFile (directory.join manifestFile) := Disk.isFile_iff.mpr ⟨_, hread⟩
    rw [if_neg (not_not_intro hfile), Disk.readText_of_readFile hread]
    simp [manifestOfJson?_manifestJson]

/-- A directory is loaded as the bundle of what it holds, less the documents that are not looked
for. -/
theorem Holds.load (h : Holds d directory root documents compiled)
    (hdistinct : (documents.map (·.names)).Nodup) {descriptor : Descriptor}
    (hdescribes : Describes d directory descriptor) (hclark : descriptor.IsClark) :
    load d directory = .ok ⟨some directory, descriptor,
      (inOrder (named documents)).map (·.settled), compiled⟩ := by
  have hdirectory : ¬ d.isFile directory := by
    rw [Disk.isFile_iff]
    rintro ⟨octets, hread⟩
    obtain ⟨place, hplace, hitem⟩ := Disk.readFile_eq_ok.mp hread
    obtain rfl : root = place := Except.ok.inj (h.place_eq.symm.trans hplace)
    rw [h.isDirectory] at hitem
    cases hitem
  have hfiles : filesOf d directory = (directory, directory.join descriptorFile) :=
    if_neg hdirectory
  have hfile : d.isFile (directory.join descriptorFile) := Disk.isFile_iff.mpr ⟨_, hdescribes⟩
  have hplaces : Bundle.schemaPlaces d (directory.join schemaDirectory) =
      (inOrder (named documents)).map SchemaDocument.names :=
    (h.schemaPlaces hdistinct).trans (map_names_inOrder (named documents)).symm
  have hdocument (s : SchemaDocument) (hs : s ∈ inOrder (named documents)) :
      (Bundle.loadSchema d (directory.join schemaDirectory) ∘ SchemaDocument.names) s =
        .ok s.settled := by
    rw [Function.comp_apply]
    exact h.loadSchema (List.mem_of_mem_filter ((inOrder_perm (named documents)).mem_iff.mp hs))
  have hdocuments : (Bundle.schemaPlaces d (directory.join schemaDirectory)).mapM
      (Bundle.loadSchema d (directory.join schemaDirectory)) =
        .ok ((inOrder (named documents)).map (·.settled)) := by
    rw [hplaces, List.mapM_map]
    exact mapM_eq_ok hdocument
  have hfrom : loadFrom d directory = .ok ⟨some directory, descriptor,
      (inOrder (named documents)).map (·.settled), compiled⟩ := by
    simp only [loadFrom, hfiles, hfile, hdescribes.load hclark, hdocuments, h.loadManifest]
    rfl
  rw [Bundle.load, hfrom]
  rfl

end Bundle

end XmlBinding
