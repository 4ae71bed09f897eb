import Mathlib.Data.List.Nodup
import XmlBinding.Bundle.Disk
import XmlBinding.Proofs.Bundle.Path
import XmlBinding.Proofs.Conversion.Run

/-!
# What changes of a disk keep

A change that succeeds or fails keeps all directories, and all files but those that it is about:
`Disk.Keeps` says so of two disks, and is what a whole run of changes is put together from. Paths
that led to a place before lead there afterwards.
-/

namespace XmlBinding

namespace Disk

/-- Each place is there once. -/
def IsProper (d : Disk) : Prop := (d.items.map (·.1)).Nodup

variable {d d' : Disk}

/-! ### Items -/

@[simp] private theorem item?_nil (d : Disk) : d.item? [] = some .directory := rfl

private theorem item?_of_ne_nil {place : Place} (h : place ≠ []) :
    d.item? place = (d.items.find? (·.1 = place)).map (·.2) := if_neg h

/-- What is put at a place is there, and everything else is as before. -/
theorem item?_put {place : Place} (hne : place ≠ []) (item : DiskItem) (q : Place) :
    (d.put place item).item? q = if q = place then some item else d.item? q := by
  by_cases hq : q = []
  · subst hq
    simp [Ne.symm hne]
  rw [item?_of_ne_nil hq, item?_of_ne_nil hq, put, List.find?_append]
  by_cases heq : q = place
  · subst heq
    have hnone : (d.items.filter (·.1 ≠ q)).find? (·.1 = q) = none := by
      rw [List.find?_eq_none]
      intro x hx
      simpa using (List.mem_filter.mp hx).2
    rw [hnone, if_pos rfl]
    simp
  · have hsame : (d.items.filter (·.1 ≠ place)).find? (·.1 = q) = d.items.find? (·.1 = q) := by
      rw [List.find?_filter]
      congr 1
      funext x
      by_cases hx : x.1 = q <;> simp [hx, heq]
    have hnone : [(place, item)].find? (·.1 = q) = none := by simp [Ne.symm heq]
    rw [hsame, hnone, Option.or_none, if_neg heq]

private theorem isProper_put (h : d.IsProper) (place : Place) (item : DiskItem) :
    (d.put place item).IsProper := by
  have hfilter : ((d.items.filter (·.1 ≠ place)).map (·.1)).Nodup :=
    h.sublist (List.filter_sublist.map _)
  unfold IsProper put
  rw [List.map_append, List.nodup_append]
  refine ⟨hfilter, by simp, ?_⟩
  intro q hq q' hq' heq
  subst heq
  obtain ⟨x, hx, rfl⟩ := List.mem_map.mp hq
  simp at hq'
  simp [hq'] at hx

/-- What is at a place is listed under it. -/
theorem mem_items_iff (h : d.IsProper) {place : Place} (hne : place ≠ []) {item : DiskItem} :
    (place, item) ∈ d.items ↔ d.item? place = some item := by
  rw [item?_of_ne_nil hne]
  constructor
  · intro hmem
    cases hfind : d.items.find? (·.1 = place) with
    | none =>
      have hother := List.find?_eq_none.mp hfind _ hmem
      simp at hother
    | some x =>
      have hx : x.1 = place := by simpa using List.find?_some hfind
      rw [List.inj_on_of_nodup_map h (List.mem_of_find?_eq_some hfind) hmem hx]
      rfl
  · intro hfind
    obtain ⟨x, hx, rfl⟩ := Option.map_eq_some_iff.mp hfind
    have hplace : x.1 = place := by simpa using List.find?_some hx
    exact hplace ▸ List.mem_of_find?_eq_some hx

private theorem item?_perm (h : d.IsProper) (hperm : d.items.Perm d'.items) (place : Place) :
    d'.item? place = d.item? place := by
  have h' : d'.IsProper := (hperm.map _).nodup_iff.mp h
  by_cases hne : place = []
  · subst hne
    rfl
  · ext item
    rw [← mem_items_iff h hne, ← mem_items_iff h' hne, hperm.mem_iff]

/-- The files below a place are those at places behind it. -/
theorem mem_filesBelow {place names : Place} {octets : List UInt8} :
    (names, octets) ∈ d.filesBelow place ↔ (place ++ names, .file octets) ∈ d.items := by
  unfold filesBelow
  rw [List.mem_filterMap]
  constructor
  · rintro ⟨⟨q, item⟩, hmem, hitem⟩
    cases item with
    | directory => cases hitem
    | file octets' =>
      obtain ⟨hfront, heq⟩ := Option.ite_none_right_eq_some.mp hitem
      obtain ⟨behind, rfl⟩ := List.isPrefixOf_iff_prefix.mp hfront
      obtain ⟨rfl, rfl⟩ : behind = names ∧ octets' = octets := by simpa using heq
      exact hmem
  · intro hmem
    exact ⟨_, hmem, by simp⟩

/-- Each file is listed once. -/
theorem nodup_filesBelow (h : d.IsProper) (place : Place) :
    ((d.filesBelow place).map (·.1)).Nodup := by
  -- Put behind the place again, the names are places of the disk, in the order of its items.
  have hsub : (((d.filesBelow place).map (·.1)).map (place ++ ·)).Sublist (d.items.map (·.1)) := by
    unfold filesBelow
    induction d.items with
    | nil => exact .slnil
    | cons x items ih =>
      obtain ⟨q, item⟩ := x
      rw [List.filterMap_cons]
      split
      · exact ih.cons q
      · next found hfound =>
        cases item with
        | directory => cases hfound
        | file octets =>
          obtain ⟨hfront, heq⟩ := Option.ite_none_right_eq_some.mp hfound
          obtain rfl := Option.some.inj heq
          obtain ⟨behind, rfl⟩ := List.isPrefixOf_iff_prefix.mp hfront
          simpa using ih
  exact (h.sublist hsub).of_map _

/-! ### What is kept -/

/-- From one disk to the next all directories stay, and all files but at the changed places. -/
structure Keeps (changed : Place → Prop) (d d' : Disk) : Prop where
  directory : ∀ {q}, d.item? q = some .directory → d'.item? q = some .directory
  /-- Files stay as they are, and there are no new ones. -/
  file : ∀ {q}, ¬ changed q → ∀ octets,
    (d'.item? q = some (.file octets) ↔ d.item? q = some (.file octets))
  isProper : d.IsProper → d'.IsProper

/-- Where nothing is done all is kept, whatever might have changed. -/
theorem Keeps.refl (changed : Place → Prop) (d : Disk) : Keeps changed d d :=
  ⟨id, fun _ _ ↦ .rfl, id⟩

/-- What is kept by a change of few places is kept by one of more. -/
theorem Keeps.mono {changed changed' : Place → Prop} (h : Keeps changed d d')
    (hsub : ∀ q, changed q → changed' q) : Keeps changed' d d' :=
  ⟨h.directory, fun hq ↦ h.file fun hc ↦ hq (hsub _ hc), h.isProper⟩

/-- Changes of such places one after the other are a change of such places. -/
theorem Keeps.trans {changed : Place → Prop} {d'' : Disk} (h : Keeps changed d d')
    (h' : Keeps changed d' d'') : Keeps changed d d'' :=
  ⟨fun hq ↦ h'.directory (h.directory hq),
    fun hq octets ↦ (h'.file hq octets).trans (h.file hq octets),
    fun hd ↦ h'.isProper (h.isProper hd)⟩

/-- A disk that lists its items in another order is the same to all that read it. -/
theorem keeps_of_perm (h : d.IsProper) (hperm : d.items.Perm d'.items) (changed : Place → Prop) :
    Keeps changed d d' :=
  ⟨fun hq ↦ (item?_perm h hperm _).trans hq, fun _ _ ↦ by rw [item?_perm h hperm],
    fun hd ↦ (hperm.map _).nodup_iff.mp hd⟩

private theorem keeps_put_directory {place : Place} (h : d.item? place = none)
    (changed : Place → Prop) : Keeps changed d (d.put place .directory) := by
  have hne : place ≠ [] := by
    rintro rfl
    cases h
  refine ⟨fun {q} hq ↦ ?_, fun {q} _ octets ↦ ?_, fun hd ↦ isProper_put hd place _⟩
  · rw [item?_put hne]
    split
    · rfl
    · exact hq
  · rw [item?_put hne]
    split
    · next heq => simp [heq, h]
    · exact .rfl

private theorem keeps_put_file {place : Place} (h : d.item? place ≠ some .directory)
    (octets : List UInt8) : Keeps (· = place) d (d.put place (.file octets)) := by
  have hne : place ≠ [] := by
    rintro rfl
    exact h rfl
  refine ⟨fun {q} hq ↦ ?_, fun {q} hq _ ↦ ?_, fun hd ↦ isProper_put hd place _⟩
  · rw [item?_put hne, if_neg (by rintro rfl; exact h hq), hq]
  · rw [item?_put hne, if_neg hq]

/-! ### Ways -/

/-- A step that leads somewhere starts from a directory. -/
theorem directory_of_step {place place' : Place} {piece : String}
    (h : d.step place piece = .ok place') : d.item? place = some .directory := by
  unfold step at h
  split at h
  · cases h
  · cases h
  · assumption

/-- From a directory, where a step leads is up to the piece alone. -/
private theorem step_congr {place : Place} {piece : String} (h : d.item? place = some .directory)
    (h' : d'.item? place = some .directory) : d.step place piece = d'.step place piece := by
  simp only [step, h, h']

/-- The way by pieces from a place to another, or what is in the way. -/
def walkFrom (d : Disk) (place : Place) (pieces : List String) : Except Obstacle Place :=
  pieces.foldlM d.step place

@[simp] private theorem walkFrom_nil (place : Place) : d.walkFrom place [] = .ok place := rfl

private theorem walkFrom_cons {place place' : Place} {piece : String} {pieces : List String} :
    d.walkFrom place (piece :: pieces) = .ok place' ↔
      ∃ next, d.step place piece = .ok next ∧ d.walkFrom next pieces = .ok place' := by
  unfold walkFrom
  rw [List.foldlM_cons]
  cases d.step place piece with
  | error obstacle => simp [bind, Except.bind]
  | ok next => simp [bind, Except.bind]

private theorem walkFrom_append {place place' : Place} {pieces more : List String} :
    d.walkFrom place (pieces ++ more) = .ok place' ↔
      ∃ next, d.walkFrom place pieces = .ok next ∧ d.walkFrom next more = .ok place' := by
  induction pieces generalizing place with
  | nil => simp
  | cons piece pieces ih =>
    rw [List.cons_append, walkFrom_cons]
    simp only [walkFrom_cons, ih]
    grind

/-- A piece that says nothing leads nowhere else. -/
theorem eq_of_step_none {place next : Place} {piece : String} (h : Path.componentOf? piece = none)
    (hstep : d.step place piece = .ok next) : next = place := by
  simpa [step, directory_of_step hstep, h, eq_comm] using hstep

private theorem eq_of_step_name {place next : Place} {s : String}
    (h : Path.componentOf? s = some (.name s)) (hstep : d.step place s = .ok next) :
    next = place ++ [s] := by
  simp only [step, directory_of_step hstep, h] at hstep
  split at hstep
  · exact (Except.ok.inj hstep).symm
  · cases hstep

/-- Pieces that say nothing make no difference, and names are passed one after the other. -/
theorem walkFrom_names {place place' : Place} {pieces names : List String}
    (h : pieces.filterMap Path.componentOf? = names.map .name)
    (hwalk : d.walkFrom place pieces = .ok place') :
    place' = place ++ names ∧ d.walkFrom place names = .ok place' := by
  induction pieces generalizing place names with
  | nil =>
    obtain rfl : names = [] := List.map_eq_nil_iff.mp h.symm
    cases hwalk
    simp
  | cons piece pieces ih =>
    obtain ⟨next, hstep, hrest⟩ := walkFrom_cons.mp hwalk
    cases hpiece : Path.componentOf? piece with
    | none =>
      rw [List.filterMap_cons_none hpiece] at h
      rw [eq_of_step_none hpiece hstep] at hrest
      exact ih h hrest
    | some component =>
      rw [List.filterMap_cons_some hpiece] at h
      cases names with
      | nil => cases h
      | cons s names =>
        obtain ⟨rfl, hnames⟩ := List.cons.inj h
        obtain rfl := Path.eq_of_componentOf? hpiece
        obtain ⟨rfl, hwalk⟩ := ih hnames hrest
        obtain rfl := eq_of_step_name hpiece hstep
        exact ⟨by simp, walkFrom_cons.mpr ⟨_, hstep, hwalk⟩⟩

/-! ### Places of paths -/

/-- A text that a path may have at all. -/
def IsUsable (p : Path) : Prop := '\x00' ∉ p.text.toList ∧ p.text.utf8ByteSize ≤ maxPathSize

private theorem utf8ByteSize_le_of_sublist {cs ds : List Char} (h : cs.Sublist ds) :
    (String.ofList cs).utf8ByteSize ≤ (String.ofList ds).utf8ByteSize := by
  induction h with
  | slnil => exact Nat.le_refl _
  | cons c _ ih =>
    rw [String.ofList_cons, String.utf8ByteSize_append]
    omega
  | cons_cons c _ ih =>
    rw [String.ofList_cons, String.ofList_cons, String.utf8ByteSize_append,
      String.utf8ByteSize_append]
    omega

private theorem IsUsable.of_sublist {p q : Path} (h : IsUsable q)
    (hsub : p.text.toList.Sublist q.text.toList) : IsUsable p := by
  have hsize := utf8ByteSize_le_of_sublist hsub
  rw [String.ofList_toList, String.ofList_toList] at hsize
  exact ⟨fun hnul ↦ h.1 (hsub.subset hnul), Nat.le_trans hsize h.2⟩

private theorem place_eq_ok {p : Path} {place : Place} :
    d.place p = .ok place ↔ IsUsable p ∧ d.walkFrom [] p.pieces = .ok place := by
  unfold Disk.place usablePieces IsUsable
  by_cases hnul : '\x00' ∈ p.text.toList
  · simp [hnul, bind, Except.bind]
  · by_cases hsize : maxPathSize < p.text.utf8ByteSize
    · simp [hnul, hsize, bind, Except.bind, Nat.not_le_of_lt hsize]
    · simp [hnul, hsize, bind, Except.bind, walk, walkFrom, Nat.le_of_not_lt hsize]

/-- A file is read if its path leads to one, and then as the octets in it. -/
theorem readFile_eq_ok {p : Path} {octets : List UInt8} :
    d.readFile p = .ok octets ↔
      ∃ place, d.place p = .ok place ∧ d.item? place = some (.file octets) := by
  unfold readFile
  cases d.place p with
  | error obstacle => simp [bind, Except.bind]
  | ok place =>
    simp only [bind, Except.bind, Except.ok.injEq, exists_eq_left']
    split <;> simp_all [pure, Except.pure, throw, throwThe, MonadExceptOf.throw]

/-- Just the files are read. -/
theorem isFile_iff {p : Path} : d.isFile p ↔ ∃ octets, d.readFile p = .ok octets := by
  unfold isFile
  cases d.readFile p <;> simp [Except.isOk, Except.toBool]

private theorem walkFrom_empty {place : Place} (h : d.item? place = some .directory) :
    d.walkFrom place [""] = .ok place :=
  walkFrom_cons.mpr ⟨place, by simp [step, h, Path.componentOf?], rfl⟩

/-- A path behind another leads on from where the other leads. -/
theorem walkFrom_join {p q : Path} (h : ¬ q.IsRooted) {place place' : Place} :
    d.walkFrom place (p.join q).pieces = .ok place' ↔
      ∃ next, d.walkFrom place p.pieces = .ok next ∧ d.walkFrom next q.pieces = .ok place' := by
  rcases Path.pieces_join p h with hpieces | ⟨before, hp, hpieces⟩
  · rw [hpieces, walkFrom_append]
  · -- The path ends in a slash: the empty piece behind it is gone once something is joined.
    rw [hpieces, hp, walkFrom_append]
    constructor
    · rintro ⟨next, hbefore, hbehind⟩
      obtain ⟨piece, pieces, hq⟩ := List.exists_cons_of_ne_nil q.pieces_ne_nil
      obtain ⟨_, hstep, -⟩ := walkFrom_cons.mp (hq ▸ hbehind)
      have hempty := walkFrom_empty (directory_of_step hstep)
      exact ⟨next, walkFrom_append.mpr ⟨next, hbefore, hempty⟩, hbehind⟩
    · rintro ⟨next, hboth, hbehind⟩
      obtain ⟨last, hbefore, hempty⟩ := walkFrom_append.mp hboth
      obtain ⟨_, hstep, hnil⟩ := walkFrom_cons.mp hempty
      obtain rfl := eq_of_step_none rfl hstep
      cases hnil
      exact ⟨_, hbefore, hbehind⟩

section

variable {p q : Path} {names : List String} {root target : Place}

/-- A path by names behind another leads to a place by these names. -/
theorem eq_of_place_join (hq : q.Names names) (hroot : d.place p = .ok root)
    (h : d.place (p.join q) = .ok target) : target = root ++ names := by
  obtain ⟨next, hnext, hbehind⟩ := (walkFrom_join hq.not_isRooted).mp (place_eq_ok.mp h).2
  obtain rfl : root = next := Except.ok.inj ((place_eq_ok.mp hroot).2.symm.trans hnext)
  exact (walkFrom_names hq.steps_eq hbehind).1

/-- The file at a path by names behind another. -/
theorem of_readFile_join (hq : q.Names names) (hroot : d.place p = .ok root)
    {octets : List UInt8} (h : d.readFile (p.join q) = .ok octets) :
    d.place (p.join q) = .ok (root ++ names) ∧
      d.item? (root ++ names) = some (.file octets) := by
  obtain ⟨place, hplace, hitem⟩ := readFile_eq_ok.mp h
  obtain rfl := eq_of_place_join hq hroot hplace
  exact ⟨hplace, hitem⟩

/-- Behind another path, the names alone lead where a path by the names leads. -/
theorem place_join_ofNames (hq : q.Names names) (h : d.place (p.join q) = .ok target) :
    d.place (p.join (.ofNames names)) = .ok target := by
  obtain ⟨husable, hwalk⟩ := place_eq_ok.mp h
  obtain ⟨next, hnext, hbehind⟩ := (walkFrom_join hq.not_isRooted).mp hwalk
  have hnames := hq.ofNames
  have hsub := Path.sublist_join p hnames.not_isRooted hq.not_isRooted hq.sublist_text
  refine place_eq_ok.mpr ⟨husable.of_sublist hsub, (walkFrom_join hnames.not_isRooted).mpr
    ⟨next, hnext, ?_⟩⟩
  rw [hq.pieces_ofNames]
  exact (walkFrom_names hq.steps_eq hbehind).2

/-- A way to somewhere behind a path is a way by the path. -/
theorem exists_place_of_join (hq : ¬ q.IsRooted) (h : d.place (p.join q) = .ok target) :
    ∃ next, d.place p = .ok next := by
  obtain ⟨husable, hwalk⟩ := place_eq_ok.mp h
  obtain ⟨next, hnext, -⟩ := (walkFrom_join hq).mp hwalk
  exact ⟨next, place_eq_ok.mpr ⟨husable.of_sublist (Path.sublist_join_self p hq), hnext⟩⟩

variable {changed : Place → Prop}

private theorem Keeps.walkFrom (h : Keeps changed d d') {pieces : List String}
    (hwalk : d.walkFrom root pieces = .ok target) : d'.walkFrom root pieces = .ok target := by
  induction pieces generalizing root with
  | nil => exact hwalk
  | cons piece pieces ih =>
    obtain ⟨next, hstep, hrest⟩ := walkFrom_cons.mp hwalk
    have hdirectory := directory_of_step hstep
    rw [step_congr hdirectory (h.directory hdirectory)] at hstep
    exact walkFrom_cons.mpr ⟨next, hstep, ih hrest⟩

/-- Ways stay. -/
theorem Keeps.place (h : Keeps changed d d') (hplace : d.place p = .ok target) :
    d'.place p = .ok target := by
  obtain ⟨husable, hwalk⟩ := place_eq_ok.mp hplace
  exact place_eq_ok.mpr ⟨husable, h.walkFrom hwalk⟩

/-- What is read of a file that has not changed. -/
theorem Keeps.readFile (h : Keeps changed d d') (hplace : d.place p = .ok target)
    (hchanged : ¬ changed target) {octets : List UInt8} (hread : d.readFile p = .ok octets) :
    d'.readFile p = .ok octets := by
  obtain ⟨place, hplace', hitem⟩ := readFile_eq_ok.mp hread
  obtain rfl : target = place := Except.ok.inj (hplace.symm.trans hplace')
  exact readFile_eq_ok.mpr ⟨target, h.place hplace, (h.file hchanged octets).mpr hitem⟩

end

/-! ### Changes -/

private theorem run_get (d : Disk) : (get : Change Disk).run.run d = (.ok d, d) := rfl

private theorem run_liftM {α : Type} (x : Except Obstacle α) (d : Disk) :
    (liftM x : Change α).run.run d = (x, d) := by
  cases x <;> rfl

private theorem run_makeDirectory (p : Path) (d : Disk) :
    (makeDirectory p).run.run d =
      match usablePieces p with
      | .error obstacle => (.error obstacle, d)
      | .ok pieces =>
        match d.walk (pieces.reverse.dropWhile (· = "")).reverse with
        | .error obstacle => (.error obstacle, d)
        | .ok place =>
          match d.item? place with
          | none => (.ok (), d.put place .directory)
          | some .directory => (.ok (), d)
          | some (.file _) => (.error .blocked, d) := by
  unfold makeDirectory
  simp only [run_bind, run_get, run_liftM]
  cases usablePieces p with
  | error obstacle => rfl
  | ok pieces =>
    dsimp only
    cases d.walk (pieces.reverse.dropWhile (· = "")).reverse with
    | error obstacle => rfl
    | ok place =>
      dsimp only
      cases d.item? place with
      | none => rfl
      | some item => cases item <;> rfl

private theorem keeps_makeDirectory (changed : Place → Prop) (p : Path) (d : Disk) :
    Keeps changed d ((makeDirectory p).run.run d).2 := by
  rw [run_makeDirectory]
  split
  · exact .refl changed d
  · split
    · exact .refl changed d
    · split
      · next hnone => exact keeps_put_directory hnone changed
      · exact .refl changed d
      · exact .refl changed d

private theorem run_makeFirst_cons (p : Path) (ps : List Path) (d : Disk) :
    (makeFirst (p :: ps)).run.run d =
      match (makeDirectory p).run.run d with
      | (.ok (), d₁) => (.ok (), d₁)
      | (.error .missing, d₁) =>
        match (makeFirst ps).run.run d₁ with
        | (.ok (), d₂) => (makeDirectory p).run.run d₂
        | (.error obstacle, d₂) => (.error obstacle, d₂)
      | (.error obstacle, d₁) => (.error obstacle, d₁) := by
  rw [makeFirst]
  change (ExceptT.tryCatch (makeDirectory p) _).run.run d = _
  rw [run_tryCatch]
  rcases (makeDirectory p).run.run d with ⟨obstacle | _, d₁⟩
  · cases obstacle with
    | missing =>
      dsimp only
      rw [run_bind]
      rcases (makeFirst ps).run.run d₁ with ⟨_ | _, d₂⟩ <;> rfl
    | blocked | nul => rfl
  · rfl

private theorem keeps_makeFirst (changed : Place → Prop) (ps : List Path) (d : Disk) :
    Keeps changed d ((makeFirst ps).run.run d).2 := by
  induction ps generalizing d with
  | nil => exact .refl changed d
  | cons p ps ih =>
    have hfirst := keeps_makeDirectory changed p d
    rw [run_makeFirst_cons]
    split
    · next d₁ h => rwa [h] at hfirst
    · next d₁ h =>
      rw [h] at hfirst
      have haround := ih d₁
      split
      · next d₂ h' =>
        rw [h'] at haround
        exact (hfirst.trans haround).trans (keeps_makeDirectory changed p d₂)
      · next d₂ h' =>
        rw [h'] at haround
        exact hfirst.trans haround
    · next d₁ h => rwa [h] at hfirst

/-- Making directories changes no file, not even where it fails half way. -/
theorem keeps_makeDirectories (changed : Place → Prop) (p : Path) (d : Disk) :
    Keeps changed d ((makeDirectories p).run.run d).2 :=
  keeps_makeFirst changed p.ancestors d

private theorem run_writeFile (p : Path) (octets : List UInt8) (d : Disk) :
    (writeFile p octets).run.run d =
      match d.place p with
      | .error obstacle => (.error obstacle, d)
      | .ok place =>
        if d.isDirectoryAt place then (.error .blocked, d)
        else (.ok (), d.put place (.file octets)) := by
  unfold writeFile
  simp only [run_bind, run_get, run_liftM]
  cases d.place p with
  | error obstacle => rfl
  | ok place =>
    dsimp only
    by_cases hdirectory : d.isDirectoryAt place
    · simp only [hdirectory, if_true]
      rfl
    · simp only [hdirectory]
      rfl

/-- A file that was written has the octets at its place, and nothing else has changed. -/
theorem writeFile_eq_ok {p : Path} {octets : List UInt8}
    (h : (writeFile p octets).run.run d = (.ok (), d')) :
    ∃ place, d.place p = .ok place ∧ Keeps (· = place) d d' ∧
      d'.item? place = some (.file octets) := by
  rw [run_writeFile] at h
  split at h
  · cases h
  · next place hplace =>
    split at h
    · cases h
    · next hdirectory =>
      obtain rfl : d.put place (.file octets) = d' := (Prod.mk.inj h).2
      have hfree : d.item? place ≠ some .directory := by simpa [isDirectoryAt] using hdirectory
      have hne : place ≠ [] := by
        rintro rfl
        exact hfree rfl
      exact ⟨place, hplace, keeps_put_file hfree octets, by rw [item?_put hne, if_pos rfl]⟩

end Disk

end XmlBinding
