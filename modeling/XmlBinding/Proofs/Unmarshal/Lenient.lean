import XmlBinding.Proofs.Context.Generated
import XmlBinding.Proofs.Conversion.Structure
import XmlBinding.Proofs.Unmarshal.Element
import XmlBinding.Proofs.Unmarshal.Settled

/-!
# What a lenient call reads

A lenient call reads every element that is whole, whatever is in it, and takes just that. What it
reads is a matter of the events of the element alone: not of where they began, of what comes behind
them, or of how deep the recursion may go. `Context.elementValue` says what it is in terms of what
reading each child element by itself gives (`Context.readAlone`).
-/

namespace XmlBinding

open Event

/-! ### What attributes say -/

/-- The value of the type for a text, by the declarations in scope. -/
def BindingType.valueOfText (t : BindingType) (scope : NamespaceScope) (text : String) :
    Except ConversionError Value :=
  match t.kind with
  | .builtin space => ((t.name.codec space).read scope.namespaceOf? text).map Value.scalar
  | .byName _ _ => .error (.notAnAttribute t.name)
  | .list _ _ => .error (.notAnAttribute t.name)
  | .polymorphic _ _ => .ok (.ofString text)

namespace Context

open Reading

variable (c : Context)

/-- The attributes mark a value as null. -/
def marksNull (attributes : List Attribute) : Bool :=
  (XmlBinding.attribute? attributes .nilMarker).any fun text ↦
    Text.trimmed text = "true" ∨ Text.trimmed text = "1"

/-- The type that attributes mark a value with, if it may stand in for the declared type or there is
none declared. -/
def heeded? (declared : Option BindingType) (attributes : List Attribute) (scope : NamespaceScope) :
    Option BindingType :=
  (XmlBinding.attribute? attributes .typeMarker).bind fun text ↦
    (QName.resolve scope.namespaceOf? text).toOption.bind fun schema ↦
      ((c.catalog.typeOfSchema? schema).bind c.catalog.typeNamed?).filter fun found ↦
        declared.all fun declared ↦
          declared.name = found.name ∨ c.catalog.admits declared found

/-- The type that a lenient call chooses for an element: the one that is heeded, else the declared
one, else that of the root element. -/
def chosen? (declared : Option BindingType) (name : QName) (attributes : List Attribute)
    (scope : NamespaceScope) : Option BindingType :=
  ((c.heeded? declared attributes scope).or declared).or (c.rootType name).toOption

/-- The type that a lenient call reads an element with: the chosen one, or for a polymorphic type
its base, if that has a binding. -/
def typeRead? (declared : Option BindingType) (name : QName) (attributes : List Attribute)
    (scope : NamespaceScope) : Option BindingType :=
  (c.chosen? declared name attributes scope).bind fun chosen ↦
    match chosen.kind with
    | .polymorphic (some base) _ => c.catalog.typeNamed? base
    | _ => some chosen

/-- The type that an element is read as in the end: none if it is marked as null, or if there is
none to read it with or that has no binding. -/
def readAs? (declared : Option BindingType) (name : QName) (attributes : List Attribute)
    (scope : NamespaceScope) : Option BindingType :=
  if marksNull attributes then none
  else (c.typeRead? declared name attributes scope).bind fun type ↦ c.catalog.typeNamed? type.name

/-- The field of a property that is an attribute, by the attribute or else its default. -/
def attributeField (attributes : List Attribute) (scope : NamespaceScope) (p : Property) :
    Option Value :=
  ((XmlBinding.attribute? attributes p.qname).or p.default).bind fun text ↦
    (c.catalog.typeNamed? p.type).map fun type ↦
      (type.valueOfText scope text).toOption.getD type.default

/-- The attributes mark a value with the name of a type that has no binding. -/
def isMarkUnknown (attributes : List Attribute) (scope : NamespaceScope) : Bool :=
  (XmlBinding.attribute? attributes .typeMarker).any fun text ↦
    (QName.resolve scope.namespaceOf? text).toOption.any fun schema ↦
      ((c.catalog.typeOfSchema? schema).bind c.catalog.typeNamed?).isNone

/-- The call ends without a type to read an element with: none can be chosen, or the call is strict
and a name has no binding. -/
def refuses (strict : Bool) (declared : Option BindingType) (name : QName)
    (attributes : List Attribute) (scope : NamespaceScope) : Bool :=
  (c.chosen? declared name attributes scope).isNone ||
    strict && (c.isMarkUnknown attributes scope ||
      (c.typeRead? declared name attributes scope).isNone)

variable {c} {attributes : List Attribute} {scope : NamespaceScope}
  {declared : Option BindingType} {child : BindingType → Reading Value}

/-- Whether an element is marked as null is up to its attributes. -/
theorem consumes_isMarkedNull :
    Consumes isMarkedNull attributes scope [] (marksNull attributes) := by
  unfold isMarkedNull marksNull
  refine (consumes_attribute? .nilMarker).bind ?_
  cases XmlBinding.attribute? attributes .nilMarker <;> exact consumes_pure _

/-- Which mark is heeded is up to the attributes and the declarations, and so is whether a strict
call fails at it. -/
private theorem settles_markedType? (strict : Bool) :
    Settles (c.markedType? strict declared) attributes scope []
      (if strict && c.isMarkUnknown attributes scope then none
        else some (c.heeded? declared attributes scope)) := by
  unfold markedType? isMarkUnknown heeded?
  refine (consumes_attribute? .typeMarker).settles ?_
  cases XmlBinding.attribute? attributes .typeMarker with
  | none =>
    rw [Option.any_none, Bool.and_false]
    exact consumes_pure none
  | some text =>
    refine settles_current fun location ↦ ?_
    rw [Option.bind_some, Option.any_some]
    cases QName.resolve scope.namespaceOf? text with
    | error cause =>
      rw [Except.toOption, Option.any_none, Bool.and_false]
      exact (consumes_report _).bind (consumes_pure none)
    | ok schema =>
      rw [Except.toOption, Option.bind_some, Option.any_some]
      dsimp only
      generalize (c.catalog.typeOfSchema? schema).bind c.catalog.typeNamed? = found
      cases found with
      | none =>
        cases strict with
        | true => exact fails_throw _
        | false => exact (consumes_report _).bind (consumes_pure none)
      | some found =>
        rw [Option.isNone_some, Bool.and_false]
        cases declared with
        | none => exact consumes_pure _
        | some declared =>
          rw [Option.filter_some, Option.all_some]
          by_cases hstands : declared.name = found.name ∨ c.catalog.admits declared found = true
          · simp only [if_pos hstands, decide_eq_true hstands, if_true]
            exact consumes_pure _
          · simp only [if_neg hstands, decide_eq_false hstands]
            exact (consumes_report _).bind (consumes_pure none)

/-- A name has no binding type, which a strict call does not survive. -/
theorem settles_unresolved (strict : Bool) (handovers : Nat) (missing : BindingName) :
    Settles ((c.readSession strict child handovers).unresolved missing) attributes scope []
      (if strict then none else some ()) := by
  unfold ReadSession.unresolved
  rw [readSession_strict]
  cases strict with
  | true => exact fails_throw _
  | false => exact consumes_report _

private theorem settles_unresolved_return {α : Type} (strict : Bool) (handovers : Nat)
    (missing : BindingName) (a : α) : Settles (do
      (c.readSession strict child handovers).unresolved missing
      return a) attributes scope [] (if strict then none else some a) := by
  have hmissing := @settles_unresolved c attributes scope child strict handovers missing
  cases strict with
  | true => exact Fails.bind hmissing
  | false => exact Consumes.settles hmissing (consumes_pure a)

/-- A lenient call notes that a name has no binding type, and goes on. -/
theorem consumes_unresolved (handovers : Nat) (missing : BindingName) :
    Consumes ((c.readSession false child handovers).unresolved missing) attributes scope [] () :=
  settles_unresolved false handovers missing

/-- Which type an element is read with is up to the attributes and the declarations, and so is
whether the call ends without one. -/
theorem settles_readType? (strict : Bool) (handovers : Nat) (name : QName) :
    Settles (c.readType? (c.readSession strict child handovers) declared name) attributes scope []
      (if c.refuses strict declared name attributes scope then none
        else some (c.typeRead? declared name attributes scope)) := by
  unfold readType? refuses typeRead?
  rw [readSession_strict]
  have hmark := @settles_markedType? c attributes scope declared strict
  cases hunknown : strict && c.isMarkUnknown attributes scope with
  | true =>
    rw [hunknown, if_pos rfl] at hmark
    rw [Bool.and_or_distrib_left, hunknown, Bool.true_or, Bool.or_true, if_pos rfl]
    exact Fails.bind hmark
  | false =>
    rw [hunknown, if_neg Bool.false_ne_true] at hmark
    rw [Bool.and_or_distrib_left, hunknown, Bool.false_or]
    refine Consumes.settles hmark ?_
    unfold chosen?
    -- Whichever way the type was chosen, the base of a polymorphic one takes its place.
    rcases hmarked : (c.heeded? declared attributes scope).or declared with _ | type
    case' none =>
      rw [Option.none_or]
      rcases hroot : c.rootType name with error | type
      case' error => exact fails_throw error
      case' ok => refine (consumes_pure type).settles ?_
    case' some => refine (consumes_pure type).settles ?_
    all_goals
      obtain ⟨own, kind⟩ := type
      rcases kind with _ | _ | _ | ⟨_ | base, subtypes⟩
      case' polymorphic.some =>
        rcases Option.eq_none_or_eq_some (c.catalog.typeNamed? base) with hbase | ⟨type, hbase⟩
        · simp only [Option.or, Except.toOption, Option.bind, hbase, Option.isNone_some,
            Option.isNone_none, Bool.false_or, Bool.and_true]
          exact settles_unresolved_return strict handovers base none
        · simp only [Option.or, Except.toOption, Option.bind, hbase, Option.isNone_some,
            Bool.false_or, Bool.and_false, Bool.false_eq_true, if_false]
          exact consumes_pure _
      all_goals
        simp only [Option.or, Except.toOption, Option.bind, Option.isNone_some, Bool.false_or,
          Bool.and_false, Bool.false_eq_true, if_false]
        exact consumes_pure _

/-- Which type a lenient call reads an element with is up to the attributes and the declarations, if
one can be chosen at all. -/
private theorem consumes_readType? (handovers : Nat) {name : QName}
    (hchosen : (c.chosen? declared name attributes scope).isSome = true) :
    Consumes (c.readType? (c.readSession false child handovers) declared name) attributes scope []
      (c.typeRead? declared name attributes scope) := by
  have hread := @settles_readType? c attributes scope declared child false handovers name
  rw [refuses, Bool.false_and, Bool.or_false, Option.isNone_eq_false_iff.mpr hchosen,
    if_neg Bool.false_ne_true] at hread
  exact hread

/-- A root element is only read with types that are found again under their names. -/
theorem typeNamed?_of_typeRead? {name : QName} {type : BindingType}
    (h : c.typeRead? none name attributes scope = some type) :
    c.catalog.typeNamed? type.name = some type := by
  obtain ⟨chosen, hchosen, hread⟩ := Option.bind_eq_some_iff.mp h
  have hfound : c.catalog.typeNamed? chosen.name = some chosen := by
    rcases Option.or_eq_some_iff.mp hchosen with hmarked | ⟨-, hroot⟩
    · rw [Option.or_none] at hmarked
      unfold heeded? at hmarked
      obtain ⟨_, -, hmarked⟩ := Option.bind_eq_some_iff.mp hmarked
      obtain ⟨_, -, hmarked⟩ := Option.bind_eq_some_iff.mp hmarked
      obtain ⟨hmarked, -⟩ := Option.filter_eq_some_iff.mp hmarked
      obtain ⟨found, -, hfound⟩ := Option.bind_eq_some_iff.mp hmarked
      exact Catalog.typeNamed?_name hfound
    · unfold rootType at hroot
      split at hroot
      · cases hroot
      · split at hroot
        · next found =>
          cases hroot
          exact Catalog.typeNamed?_name found
        · cases hroot
  split at hread
  · exact Catalog.typeNamed?_name hread
  · cases hread
    exact hfound

/-- The text of an attribute is read by the declarations. -/
theorem consumes_readAttribute (type : BindingType) (text : String) :
    Consumes (type.readAttribute text) attributes scope [] (type.valueOfText scope text) := by
  obtain ⟨own, kind⟩ := type
  cases kind with
  | builtin space => exact consumes_current fun _ ↦ consumes_pure _
  | byName base properties => exact consumes_pure _
  | list item itemElement => exact consumes_pure _
  | polymorphic base subtypes => exact consumes_pure _

/-- The field of an attribute is up to the attribute, or its default, and the declarations. -/
private theorem IsGenerated.consumes_readAttribute (hc : c.IsGenerated) (handovers : Nat)
    (p : Property) :
    Consumes (p.readAttribute (c.readSession false child (handovers + 1))) attributes scope []
      ((c.attributeField attributes scope p).map (p.name, ·)) := by
  unfold Property.readAttribute attributeField
  refine (consumes_attribute? p.qname).bind ?_
  cases (XmlBinding.attribute? attributes p.qname).or p.default with
  | none => exact consumes_pure none
  | some text =>
    dsimp only
    rw [readSession_catalog, Option.bind_some]
    cases ht : c.catalog.typeNamed? p.type with
    | none => exact (consumes_unresolved _ _).bind (consumes_pure none)
    | some type =>
      dsimp only
      rw [hc.reader?, Catalog.typeNamed?_name ht, Option.map_some, Option.map_some, Option.map_some]
      refine (Context.consumes_readAttribute type text).bind ?_
      cases type.valueOfText scope text with
      | ok value => exact consumes_pure _
      | error cause => exact (consumes_report _).bind (consumes_pure _)

/-! ### What is in an element -/

variable (c)

/-- What comes of reading an element by itself, within given declarations. -/
def readAlone (scope : NamespaceScope) (type : BindingType) (element : List Event) :
    Except Error Value :=
  ((c.readElement false element.length scope (some type)).run.run
    ⟨(EventStream.ofEvents element).entries, []⟩).1

/-- The value of an element that can be read by itself. -/
def valueAlone (scope : NamespaceScope) (type : BindingType) (element : List Event) : Value :=
  (c.readAlone scope type element).toOption.getD .null

/-- What a child element gives a structure: a value for the property of its name. -/
def occurrencesOf (scope : NamespaceScope) (properties : List Property) (child : List Event) :
    List Occurrence :=
  ((child.head?.bind openedName?).bind (BindingType.elementProperty? properties)).elim [] fun p ↦
    (c.catalog.typeNamed? p.1.type).elim [] fun type ↦ [⟨p.2, p.1, c.valueAlone scope type child⟩]

/-- What a child element gives a list: an item, if it has the name of items. -/
def itemsOf (scope : NamespaceScope) (item : BindingName) (itemElement : QName)
    (child : List Event) : List Value :=
  if child.head?.bind openedName? = some itemElement then
    (c.catalog.typeNamed? item).elim [] fun type ↦ [c.valueAlone scope type child]
  else []

/-- The fields of a structure by its attributes and its children. -/
def fieldsRead (attributes : List Attribute) (scope : NamespaceScope) (content : List Event)
    (properties : List Property) : Fields :=
  BindingType.gathered c.order properties
    ((properties.filter (·.isAttribute)).map fun p ↦
      (c.attributeField attributes scope p).map (p.name, ·))
    ((children content).flatMap (c.occurrencesOf scope properties))

/-- The value of a type for the content of an element. -/
def contentValue (attributes : List Attribute) (scope : NamespaceScope) (content : List Event)
    (type : BindingType) : Value :=
  match type.kind with
  | .builtin space =>
    (((type.name.codec space).read scope.namespaceOf? (contentText content)).map
      Value.scalar).toOption.getD (type.name.codec space).type.defaultValue
  | .byName _ properties =>
    .struct type.name.native (c.fieldsRead attributes scope content properties)
  | .list item itemElement => .list ((children content).flatMap (c.itemsOf scope item itemElement))
  | .polymorphic _ _ => .ofString (contentText content)

/-- The value of an element: that of its content by the type that it is read as, else null. -/
def elementValue (declared : Option BindingType) (name : QName) (attributes : List Attribute)
    (scope : NamespaceScope) (content : List Event) : Value :=
  ((c.readAs? declared name attributes scope).map
    (c.contentValue attributes scope content)).getD .null

variable {c} {content element : List Event}

/-- The value of a structure has the fields that are read. -/
theorem contentValue_of_structure {type : BindingType} {base : Option BindingName}
    {properties : List Property} (hkind : type.kind = .byName base properties) :
    c.contentValue attributes scope content type =
      .struct type.name.native (c.fieldsRead attributes scope content properties) := by
  rw [contentValue, hkind]

/-- The value of a list has the items that the children give. -/
theorem contentValue_of_list {type : BindingType} {item : BindingName} {itemElement : QName}
    (hkind : type.kind = .list item itemElement) :
    c.contentValue attributes scope content type =
      .list ((children content).flatMap (c.itemsOf scope item itemElement)) := by
  rw [contentValue, hkind]

private theorem consumes_readOccurrence (handovers : Nat) (owner : BindingName)
    (properties : List Property)
    (he : IsElement element) {name : QName} (hn : element.head?.bind openedName? = some name)
    (hchild : ∀ type, Consumes (child type) attributes scope element
      (c.valueAlone scope type element)) :
    Consumes (BindingType.readOccurrence (c.readSession false child handovers) owner properties
      name) attributes scope element (c.occurrencesOf scope properties element) := by
  unfold BindingType.readOccurrence occurrencesOf
  rw [hn, Option.bind_some]
  cases BindingType.elementProperty? properties name with
  | none => exact consumes_skipped (consumes_report _) he []
  | some p =>
    dsimp only [Option.elim]
    rw [readSession_catalog, readSession_child]
    cases c.catalog.typeNamed? p.1.type with
    | none => exact consumes_skipped (consumes_unresolved handovers _) he []
    | some type => exact (hchild type).bind_nil (consumes_pure _)

private theorem consumes_readItem (handovers : Nat) (owner item : BindingName) (itemElement : QName)
    (he : IsElement element) {name : QName} (hn : element.head?.bind openedName? = some name)
    (hchild : ∀ type, Consumes (child type) attributes scope element
      (c.valueAlone scope type element)) :
    Consumes (BindingType.readItem (c.readSession false child handovers) owner item itemElement
      name) attributes scope element (c.itemsOf scope item itemElement element) := by
  unfold BindingType.readItem itemsOf
  rw [hn]
  by_cases hname : name = itemElement
  · rw [if_neg (by simpa using hname), if_pos (by rw [hname])]
    rw [readSession_catalog, readSession_child]
    cases c.catalog.typeNamed? item with
    | none => exact consumes_skipped (consumes_unresolved handovers _) he []
    | some type => exact (hchild type).bind_nil (consumes_pure _)
  · rw [if_pos hname, if_neg (by simpa using hname)]
    exact consumes_skipped (consumes_report _) he []

private theorem IsGenerated.empties_read (hc : c.IsGenerated) (handovers : Nat)
    (hcontent : IsContent content)
    (hchild : ∀ element ∈ children content, ∀ type,
      Consumes (child type) attributes scope element (c.valueAlone scope type element))
    (type : BindingType) :
    Empties (type.read (c.readSession false child (handovers + 1))) attributes scope content
      (c.contentValue attributes scope content type) := by
  obtain ⟨own, kind⟩ := type
  cases kind with
  | builtin space =>
    refine (empties_text hcontent).bind ?_
    have htext : Consumes ((own.codec space).readText (contentText content)) attributes scope []
        (((own.codec space).read scope.namespaceOf? (contentText content)).map Value.scalar) :=
      consumes_current fun _ ↦ consumes_pure _
    refine htext.bind ?_
    dsimp only [contentValue]
    cases (own.codec space).read scope.namespaceOf? (contentText content) with
    | ok value => exact consumes_pure _
    | error cause => exact (consumes_report _).bind (consumes_pure _)
  | byName base properties =>
    refine (consumes_mapM (hc.consumes_readAttribute handovers)).empties ?_
    refine (empties_gather hcontent fun element he name hn ↦ ?_).bind (consumes_pure _)
    exact consumes_readOccurrence _ _ _ (isElement_of_mem_children hcontent he) hn
      (hchild element he)
  | list item itemElement =>
    refine (empties_gather hcontent fun element he name hn ↦ ?_).bind (consumes_pure _)
    exact consumes_readItem _ _ _ _ (isElement_of_mem_children hcontent he) hn (hchild element he)
  | polymorphic base subtypes => exact (empties_text hcontent).bind (consumes_pure _)

/-! ### Elements -/

/-- Reading the value of an element either takes its content or nothing at all, if the attributes
decide. -/
private theorem IsGenerated.readValue_cases (hc : c.IsGenerated) (hcontent : IsContent content)
    (hchild : ∀ element ∈ children content, ∀ type, Consumes (child type) attributes scope element
      (c.valueAlone scope type element)) {name : QName}
    (hchosen : marksNull attributes = false →
      (c.chosen? declared name attributes scope).isSome = true) :
    Consumes (c.readValue (c.readSession false child c.maxHandovers) declared name)
        attributes scope [] (c.elementValue declared name attributes scope content) ∨
      Empties (c.readValue (c.readSession false child c.maxHandovers) declared name)
        attributes scope content (c.elementValue declared name attributes scope content) := by
  obtain ⟨n, hmax⟩ := c.maxHandovers_eq
  rw [hmax]
  unfold readValue elementValue readAs?
  have hnull := @consumes_isMarkedNull attributes scope
  cases hmark : marksNull attributes with
  | true =>
    rw [hmark] at hnull
    exact .inl (hnull.bind (consumes_pure Value.null))
  | false =>
    rw [hmark] at hnull
    have htype := @consumes_readType? c attributes scope declared child (n + 2) name
      (hchosen hmark)
    cases hread : c.typeRead? declared name attributes scope with
    | none =>
      rw [hread] at htype
      exact .inl (hnull.bind (htype.bind (consumes_pure Value.null)))
    | some type =>
      rw [hread] at htype
      rw [Option.bind_some]
      have hreader := @IsGenerated.reader? c hc false child (n + 1) type.name
      cases ht : c.catalog.typeNamed? type.name with
      | none =>
        rw [ht, Option.map_none] at hreader
        refine .inl (hnull.bind (htype.bind ?_))
        dsimp only
        rw [hreader]
        cases declared with
        | none =>
          rw [typeNamed?_of_typeRead? hread] at ht
          cases ht
        | some declared => exact (consumes_unresolved _ _).bind (consumes_pure Value.null)
      | some type' =>
        rw [ht, Option.map_some] at hreader
        refine .inr (hnull.empties (htype.empties ?_))
        dsimp only
        rw [hreader]
        exact hc.empties_read n hcontent hchild type'

private theorem IsGenerated.consumes_readBody (hc : c.IsGenerated) {depth : Nat}
    (hcontent : IsContent content)
    (hchild : ∀ element ∈ children content, ∀ type, Consumes (c.readChild false depth type)
      attributes scope element (c.valueAlone scope type element)) {name : QName}
    (hchosen : marksNull attributes = false →
      (c.chosen? declared name attributes scope).isSome = true) (closing : QName) :
    Consumes (c.readBody false depth declared name) attributes scope
      (content ++ [.closing closing]) (c.elementValue declared name attributes scope content) := by
  rcases hc.readValue_cases hcontent hchild hchosen with hvalue | hvalue
  · exact hvalue.bind ((consumes_leave hcontent closing).bind_nil (consumes_pure _))
  · exact hvalue.leave closing

/-- Reading an element comes to what reading its body does. -/
theorem settles_readElement {strict : Bool} {outer : NamespaceScope} {depth : Nat} {name : QName}
    {declarations : List Declaration} {events : List Event} {r : Option Value}
    (h : Settles (c.readBody strict depth declared name) attributes (outer.push declarations) events
      r) :
    (c.readElement strict (depth + 1) outer declared).Settles
      (.opening name attributes declarations :: events) r := by
  have hnone : ∀ e ∈ ([] : List LocatedEvent), e.isText = true := by simp
  cases r with
  | none =>
    intro xs rest diagnostics a cursor hxs hg
    obtain ⟨⟨event, l⟩, ys, rfl, hevent, hys⟩ := List.map_eq_cons_iff.mp hxs
    cases hevent
    refine h l ys rest diagnostics a cursor hys ?_
    exact (run_readElement hnone name attributes declarations l).symm.trans hg
  | some v =>
    intro xs rest diagnostics hxs
    obtain ⟨⟨event, l⟩, ys, rfl, hevent, hys⟩ := List.map_eq_cons_iff.mp hxs
    cases hevent
    obtain ⟨diagnostics', hg⟩ := h l ys rest diagnostics hys
    exact ⟨diagnostics', (run_readElement hnone name attributes declarations l).trans hg⟩

/-- What reading an element by itself gives is what reading it anywhere does. -/
theorem readAlone_of_consumes {type : BindingType} {v : Value}
    (h : Scanning.Consumes (c.readElement false element.length scope (some type)) element v) :
    c.readAlone scope type element = .ok v := by
  obtain ⟨diagnostics, hg⟩ := h (EventStream.ofEvents element).entries [] []
    (EventStream.events_ofEvents element)
  rw [List.append_nil] at hg
  exact congrArg Prod.fst hg

/-- A declared type can always be chosen. -/
theorem isSome_chosen?_of_declared (type : BindingType) (name : QName) (attributes : List Attribute)
    (scope : NamespaceScope) :
    (c.chosen? (some type) name attributes scope).isSome = true := by
  unfold chosen?
  cases c.heeded? (some type) attributes scope <;> rfl

/-- What an element is read as could be chosen. -/
theorem isSome_chosen?_of_readAs? {name : QName} {type : BindingType}
    (h : c.readAs? declared name attributes scope = some type) :
    (c.chosen? declared name attributes scope).isSome = true := by
  unfold readAs? at h
  split at h
  · cases h
  · obtain ⟨_, h, -⟩ := Option.bind_eq_some_iff.mp h
    obtain ⟨_, h, -⟩ := Option.bind_eq_some_iff.mp h
    rw [h]
    rfl

/-- Reading a whole element takes just that, and gives its value, if a type can be chosen for it. -/
theorem IsGenerated.consumes_readElement (hc : c.IsGenerated) {depth : Nat}
    (hcontent : IsContent content) (hd : content.length + 2 ≤ depth) (outer : NamespaceScope)
    {name : QName} (closing : QName) (attributes : List Attribute) (declarations : List Declaration)
    {declared : Option BindingType} (hchosen : marksNull attributes = false →
      (c.chosen? declared name attributes (outer.push declarations)).isSome = true) :
    Scanning.Consumes (c.readElement false depth outer declared)
      (.opening name attributes declarations :: (content ++ [.closing closing]))
      (c.elementValue declared name attributes (outer.push declarations) content) := by
  induction hn : content.length using Nat.strongRecOn generalizing depth content outer name closing
    attributes declarations declared with
  | ind n ih =>
    obtain ⟨depth, rfl⟩ := Nat.exists_eq_add_one_of_ne_zero (Nat.ne_zero_of_lt hd)
    have hchild : ∀ element ∈ children content, ∀ type, Consumes (c.readChild false depth type)
        attributes (outer.push declarations) element
        (c.valueAlone (outer.push declarations) type element) := by
      intro element he type
      have hlength := length_le_of_mem_children hcontent he
      obtain ⟨name', own, declarations', inner, closing', rfl, hinner⟩ :=
        isElement_iff.mp (isElement_of_mem_children hcontent he)
      simp only [List.length_cons, List.length_append, List.length_nil] at hlength
      have hany {depth' : Nat} (hd' : inner.length + 2 ≤ depth') :=
        ih inner.length (by omega) hinner hd' (outer.push declarations) closing' own declarations'
          (fun _ ↦ isSome_chosen?_of_declared type name' own _) rfl
      have halone := readAlone_of_consumes (hany (by simp))
      rw [valueAlone, halone]
      intro location xs rest diagnostics hxs
      exact hany (by omega) xs rest diagnostics hxs
    exact settles_readElement (r := some _) (hc.consumes_readBody hcontent hchild hchosen closing)

end Context

end XmlBinding
