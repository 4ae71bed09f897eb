import Mathlib.Data.Finset.Card
import Mathlib.Data.Finset.Dedup
import XmlBinding.Conversion.Host
import XmlBinding.Proofs.Context.Generated

/-!
# Catalogs and tables

A context resolves names by its catalog and converts by its table, which are made of the same
bundles but not of one another. They agree: a name has converters exactly if the catalog resolves it
or the host supplies one, and a generated one is that of the very definition that the catalog gives
(`Context.table_agrees`).
-/

namespace XmlBinding

/-! ### The entries of a table -/

namespace Table

/-- The names of the table's own entries. -/
def names (t : Table) : List BindingName := t.entries.map (·.1)

/-- A table has an entry of its own exactly for the names of its entries. -/
theorem hasOwn_iff {t : Table} {name : BindingName} : t.hasOwn name = true ↔ name ∈ t.names := by
  unfold hasOwn slot? names
  rw [Option.isSome_map, List.find?_isSome, List.mem_map]
  simp

/-- Changing a slot keeps the names in their order and adds the slot's name if it is new. -/
private theorem names_update (t : Table) (name : BindingName) (f : Slot → Slot) :
    (t.update name f).names = if name ∈ t.names then t.names else t.names ++ [name] := by
  unfold names update
  induction t.entries with
  | nil => simp [updateEntries]
  | cons e rest ih =>
    obtain ⟨n, slot⟩ := e
    rw [updateEntries]
    split
    · next h => simp [h]
    · next h =>
      dsimp only at ih ⊢
      rw [List.map_cons, ih, List.map_cons]
      by_cases hr : name ∈ rest.map (·.1)
      · rw [if_pos hr, if_pos (List.mem_cons_of_mem _ hr)]
      · rw [if_neg hr, if_neg (by simp [hr, Ne.symm h]), List.cons_append]

private theorem nodup_names_update {t : Table} (h : t.names.Nodup) (name : BindingName)
    (f : Slot → Slot) : (t.update name f).names.Nodup := by
  rw [names_update]
  split
  · exact h
  · next hn => exact List.nodup_append.mpr ⟨h, by simp, by rintro a ha b hb rfl; simp_all⟩

end Table

/-- The built-in types have distinct names, so that it does not matter which of them is found
first. -/
theorem Descriptor.nodup_names_builtin : (Descriptor.builtin.types.map (·.name)).Nodup := by
  decide +kernel

/-! ### What bundles and the host put into a table -/

namespace Context

/-- The names that the host registered converters for. -/
def registeredNames (converters : List (BindingName × HostConverter)) : List BindingName :=
  converters.map (·.1)

/-- The converter that the host registered last for a name. -/
def registered? (converters : List (BindingName × HostConverter)) (name : BindingName) :
    Option HostConverter :=
  (converters.findRev? (·.1 = name)).map (·.2)

/-- Nothing was registered last for a name exactly if nothing was registered for it. -/
theorem registered?_eq_none_iff {converters : List (BindingName × HostConverter)}
    {name : BindingName} :
    registered? converters name = none ↔ name ∉ registeredNames converters := by
  unfold registered? registeredNames
  rw [Option.map_eq_none_iff, List.findRev?_eq_find?_reverse, List.find?_eq_none]
  constructor
  · intro h hm
    obtain ⟨e, he, hn⟩ := List.mem_map.mp hm
    exact absurd hn (by simpa using h e (List.mem_reverse.mpr he))
  · intro h e he
    simpa using fun hn ↦ h (List.mem_map.mpr ⟨e, List.mem_reverse.mp he, hn⟩)

/-- A registration with no later one for its name is the last one. -/
theorem registered?_of_last {before after : List (BindingName × HostConverter)}
    {name : BindingName} {host : HostConverter} (h : name ∉ registeredNames after) :
    registered? (before ++ (name, host) :: after) name = some host := by
  rw [← registered?_eq_none_iff, registered?, Option.map_eq_none_iff,
    List.findRev?_eq_find?_reverse] at h
  rw [registered?, List.findRev?_eq_find?_reverse, List.reverse_append, List.reverse_cons,
    List.append_assoc, List.find?_append, h, Option.none_or, List.singleton_append,
    List.find?_cons_of_pos (by simp), Option.map_some]

private theorem slot?_foldl_putHost (converters : List (BindingName × HostConverter)) (t : Table)
    (name : BindingName) :
    (converters.foldl putHost t).slot? name =
      ((registered? converters name).map fun host ↦ ⟨some (.host host), some (.host host)⟩).or
        (t.slot? name) := by
  induction converters generalizing t with
  | nil => simp [registered?]
  | cons e rest ih =>
    obtain ⟨n, host⟩ := e
    rw [List.foldl_cons, ih, putHost, Table.put, Table.slot?_update]
    -- The first registration counts only if there is no later one for its name.
    have hcons : registered? ((n, host) :: rest) name =
        (registered? rest name).or (if name = n then some host else none) := by
      unfold registered?
      simp only [List.findRev?_eq_find?_reverse, List.reverse_cons, List.find?_append]
      by_cases hn : name = n
      · subst hn
        cases rest.reverse.find? (·.1 = name) <;> simp
      · cases rest.reverse.find? (·.1 = name) <;> simp [hn, Ne.symm hn]
    rw [hcons]
    by_cases hn : name = n
    · cases registered? rest name <;> simp [hn]
    · cases registered? rest name <;> simp [hn]

/-- The table of a context has an entry for the converter of the host that was registered last for a
name, else for the generated converter of a declared name. -/
theorem slot?_tableOf (bundles : List Bundle) (converters : List (BindingName × HostConverter))
    (name : BindingName) :
    (tableOf bundles converters).slot? name =
      ((registered? converters name).map fun host ↦ ⟨some (.host host), some (.host host)⟩).or
        (if name ∈ declaredNames bundles then
          ((catalogOf bundles).typeNamed? name).map fun type ↦
            ⟨some (.generated type), some (.generated type)⟩
        else none) := by
  change (converters.foldl putHost
    ((declaredNames bundles).foldl (putGenerated (catalogOf bundles)) .empty)).slot? name = _
  rw [slot?_foldl_putHost, slot?_foldl_putGenerated]
  simp [Table.empty, Table.slot?]

/-- Names stay distinct while a table is filled. -/
theorem nodup_names_tableOf (bundles : List Bundle)
    (converters : List (BindingName × HostConverter)) :
    (tableOf bundles converters).names.Nodup := by
  have hgenerated (names : List BindingName) (t : Table) (h : t.names.Nodup) :
      (names.foldl (putGenerated (catalogOf bundles)) t).names.Nodup := by
    refine List.foldlRecOn (motive := fun t : Table ↦ t.names.Nodup) names _ h
      fun t ht name _ ↦ ?_
    unfold putGenerated
    split
    · exact Table.nodup_names_update ht _ _
    · exact ht
  exact List.foldlRecOn (motive := fun t : Table ↦ t.names.Nodup) converters putHost
    (hgenerated (declaredNames bundles) .empty List.nodup_nil)
    fun t ht e _ ↦ Table.nodup_names_update ht _ _

/-- What writes and what reads the values of a type: the converter of the host that was registered
last, else the generated one of the catalog's definition. -/
theorem converters_tableOf (bundles : List Bundle)
    (converters : List (BindingName × HostConverter)) (name : BindingName) :
    let converter := ((registered? converters name).map Converter.host).or
      (((catalogOf bundles).typeNamed? name).map .generated)
    (tableOf bundles converters).marshaller? name = converter ∧
      (tableOf bundles converters).unmarshaller? name = converter := by
  intro converter
  unfold Table.marshaller? Table.unmarshaller?
  rw [slot?_tableOf]
  cases hhost : registered? converters name with
  | some host => simp [converter, hhost]
  | none =>
    by_cases hn : name ∈ declaredNames bundles
    · obtain ⟨type, ht⟩ := Option.isSome_iff_exists.mp (isSome_typeNamed?_of_declared hn)
      simp [converter, hhost, hn, ht]
    · simp [converter, hhost, hn, typeNamed?_of_not_declared hn, Table.builtin?]

/-- The table has an entry of its own for exactly the names that are declared or registered. -/
theorem hasOwn_tableOf (bundles : List Bundle) (converters : List (BindingName × HostConverter))
    (name : BindingName) :
    (tableOf bundles converters).hasOwn name = true ↔
      name ∈ declaredNames bundles ∨ name ∈ registeredNames converters := by
  rw [Table.hasOwn, slot?_tableOf]
  cases hhost : registered? converters name with
  | some host =>
    have hm : name ∈ registeredNames converters := by
      by_contra hm
      rw [registered?_eq_none_iff.mpr hm] at hhost
      cases hhost
    simp [hm]
  | none =>
    have hm := registered?_eq_none_iff.mp hhost
    by_cases hn : name ∈ declaredNames bundles
    · simp [hn, isSome_typeNamed?_of_declared hn]
    · simp [hn, hm]

/-- The catalog gives the first definition of a name in the order of the bundles, else the built-in
one. -/
theorem typeNamed?_catalogOf (bundles : List Bundle) (name : BindingName) :
    (catalogOf bundles).typeNamed? name =
      ((bundles.flatMap (·.descriptor.types)).find? (·.name = name)).or
        (Descriptor.builtin.types.find? (·.name = name)) := by
  rw [catalogOf, Catalog.typeNamed?, List.findSome?_append, List.findSome?_map, List.find?_flatMap]
  simp [Descriptor.typeNamed?_eq, Function.comp_def]

/-- The catalog and the table of a context agree. The catalog gives the first definition of a name
in the order of the bundles, else the one built-in type of the name. The table converts what the
catalog resolves: by the converter that the host registered last for the name, else by the one that
follows from the catalog's definition. Its own entries are the names that are declared or
registered, each once. -/
theorem table_agrees (settings : Settings) (bundles : List Bundle) :
    let c := make settings bundles
    let declared := declaredNames bundles
    let registered := registeredNames settings.converters
    (∀ name, c.catalog.typeNamed? name =
      ((bundles.flatMap (·.descriptor.types)).find? (·.name = name)).or
        (Descriptor.builtin.types.find? (·.name = name))) ∧
    (Descriptor.builtin.types.map (·.name)).Nodup ∧
    (∀ name type, c.catalog.typeNamed? name = some type →
      (c.table.marshaller? name).isSome = true ∧ (c.table.unmarshaller? name).isSome = true) ∧
    (∀ name, name ∉ registered →
      c.table.marshaller? name = (c.catalog.typeNamed? name).map .generated ∧
        c.table.unmarshaller? name = (c.catalog.typeNamed? name).map .generated) ∧
    (∀ before name host after, settings.converters = before ++ (name, host) :: after →
      name ∉ registeredNames after →
      c.table.marshaller? name = some (.host host) ∧
        c.table.unmarshaller? name = some (.host host)) ∧
    (∀ name, c.catalog.typeNamed? name = none → name ∉ registered →
      c.table.marshaller? name = none ∧ c.table.unmarshaller? name = none) ∧
    (∀ name, c.table.hasOwn name = true ↔ name ∈ declared ∨ name ∈ registered) ∧
    c.table.size = (declared ++ registered).toFinset.card := by
  intro c declared registered
  have hconverters := converters_tableOf bundles settings.converters
  have hgenerated (name : BindingName) (hn : name ∉ registered) :
      c.table.marshaller? name = (c.catalog.typeNamed? name).map .generated ∧
        c.table.unmarshaller? name = (c.catalog.typeNamed? name).map .generated := by
    have h := hconverters name
    rwa [registered?_eq_none_iff.mpr hn, Option.map_none, Option.none_or] at h
  refine ⟨typeNamed?_catalogOf bundles, Descriptor.nodup_names_builtin, ?_, hgenerated, ?_, ?_,
    hasOwn_tableOf bundles settings.converters, ?_⟩
  · intro name type ht
    have ht' : (catalogOf bundles).typeNamed? name = some type := ht
    obtain ⟨hm, hu⟩ := hconverters name
    rw [show c.table = tableOf bundles settings.converters from rfl, hm, hu, ht']
    simp
  · intro before name host after heq hafter
    have h := hconverters name
    rwa [heq, registered?_of_last hafter, Option.map_some, Option.some_or, ← heq] at h
  · intro name ht hn
    have h := hgenerated name hn
    rwa [ht, Option.map_none] at h
  · have hsize : c.table.size = (tableOf bundles settings.converters).names.length :=
      (List.length_map _).symm
    rw [hsize, ← List.toFinset_card_of_nodup (nodup_names_tableOf bundles settings.converters)]
    congr 1
    ext name
    rw [List.mem_toFinset, List.mem_toFinset, List.mem_append, ← Table.hasOwn_iff]
    exact hasOwn_tableOf bundles settings.converters name

end Context

/-! ### Shapes of two bundles -/

namespace Shapes

/-- The built-in binding of texts. -/
def text : BindingName := ⟨⟨"String"⟩, .ofSchema "string"⟩

/-- Circles of another layout, and texts of another lexical space than the built-in one. -/
def redefining : Descriptor :=
  ⟨[.plain (.byName circle []), .plain (.builtin text (.text .token))], []⟩

/-- Two converters for shapes. -/
def converters : List (BindingName × HostConverter) := [(shape, .raw), (shape, .upper)]

end Shapes

/-- Two bundles bind shapes, the second one also the built-in texts, and the host converts shapes
twice over. -/
theorem Context.table_agrees_shapes :
    let c := make ⟨false, none, Value.nativeId?, Shapes.converters, .declared⟩
      [⟨none, Shapes.descriptor, [], []⟩, ⟨none, Shapes.redefining, [], []⟩]
    c.table.marshaller? Shapes.shape = some (.host .upper) ∧
      c.table.unmarshaller? Shapes.circle =
        some (.generated (.derived Shapes.circle Shapes.shape Shapes.properties)) ∧
      c.table.marshaller? Shapes.text =
        some (.generated (.builtin Shapes.text (.text .token))) ∧
      c.table.size = 3 := by
  intro c
  have hcircle : c.catalog.typeNamed? Shapes.circle =
      some (.derived Shapes.circle Shapes.shape Shapes.properties) := by decide +kernel
  have htext : c.catalog.typeNamed? Shapes.text =
      some (.builtin Shapes.text (.text .token)) := by decide +kernel
  obtain ⟨-, -, -, hgenerated, hlast, -, -, hsize⟩ :=
    table_agrees ⟨false, none, Value.nativeId?, Shapes.converters, .declared⟩
      [⟨none, Shapes.descriptor, [], []⟩, ⟨none, Shapes.redefining, [], []⟩]
  refine ⟨(hlast [(Shapes.shape, .raw)] Shapes.shape .upper [] rfl List.not_mem_nil).1, ?_, ?_, ?_⟩
  · rw [(hgenerated Shapes.circle (by decide +kernel)).2, hcircle, Option.map_some]
  · rw [(hgenerated Shapes.text (by decide +kernel)).1, htext, Option.map_some]
  · rw [hsize]
    decide +kernel

end XmlBinding
