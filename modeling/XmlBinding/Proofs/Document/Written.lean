import XmlBinding.Proofs.Document.Prefix

/-!
# What a writer writes

A document text as a row of tags and texts, each tag with the prefixes and the declarations that
stand in it. `Faithful` relates events to such a row: every prefix resolves, by the declarations on
its tag and on the open tags around it, to the namespace that the event names, an end tag repeats
the name of its start tag, and no prefix that the events declare themselves changes its meaning.
What a writer accepts it writes faithfully (`Writer.writeAll_faithful`).
-/

namespace XmlBinding

/-! ### Tags and texts -/

/-- A start tag as it stands in a text. -/
structure StartTag where
  pre : String
  name : QName
  given : List Declaration
  added : List Declaration
  attributes : List (String × Attribute)

namespace StartTag

/-- All declarations of the tag, in order. -/
def declarations (t : StartTag) : List Declaration := t.given ++ t.added

/-- The tag without its end. -/
def text (t : StartTag) : String :=
  "<" ++ joinPrefix t.pre t.name.localPart ++
    String.join (t.declarations.map Writer.declarationText) ++
    String.join (t.attributes.map fun a ↦ Writer.attributeText a.1 a.2)

/-- The event that the tag stands for. -/
def event (t : StartTag) : Event := .opening t.name (t.attributes.map (·.2)) t.given

end StartTag

/-- A tag or a text as it stands in a document. -/
inductive Written where
  /-- A start tag; `empty` if it is an end tag too. -/
  | startTag (tag : StartTag) (empty : Bool)
  | text (s : String)
  | endTag (pre localPart : String)

namespace Written

/-- The characters of a tag or a text. -/
def toString : Written → String
  | startTag tag empty => tag.text ++ if empty then "/>" else ">"
  | text s => escape false s
  | endTag pre localPart => "</" ++ joinPrefix pre localPart ++ ">"

/-- The characters of a row of tags and texts. -/
def joined (ws : List Written) : String := String.join (ws.map toString)

/-- No tags and texts are written as nothing. -/
@[simp] theorem joined_nil : joined [] = "" := rfl

/-- A row of tags and texts is written from its first one on. -/
@[simp] theorem joined_cons (w : Written) (ws : List Written) :
    joined (w :: ws) = w.toString ++ joined ws := by
  rw [joined, List.map_cons, String.join_cons]
  rfl

end Written

/-! ### Declarations on the way to a tag -/

/-- The namespace that the innermost of some tags declares a prefix for, by their declarations. -/
def declared? (tags : List (List Declaration)) (pre : String) : Option String :=
  tags.findSome? fun ds ↦ (ds.find? (·.pre = pre)).map (·.uri)

/-- The innermost tag comes first. -/
@[simp] theorem declared?_cons (ds : List Declaration) (tags : List (List Declaration))
    (pre : String) : declared? (ds :: tags) pre =
      ((ds.find? (·.pre = pre)).map (·.uri)).or (declared? tags pre) := by
  unfold declared?
  rw [List.findSome?_cons]
  cases ds.find? (·.pre = pre) <;> rfl

/-- The first of some declarations of different prefixes is the last one too. -/
private theorem find?_reverse {ds : List Declaration} (h : (ds.map (·.pre)).Nodup)
    (pre : String) : ds.reverse.find? (·.pre = pre) = ds.find? (·.pre = pre) := by
  induction ds with
  | nil => rfl
  | cons d rest ih =>
    rw [List.map_cons, List.nodup_cons] at h
    rw [List.reverse_cons, List.find?_append, ih h.2]
    by_cases hp : d.pre = pre
    · have hnone : rest.find? (·.pre = pre) = none := by
        rw [List.find?_eq_none]
        intro e he
        simp only [decide_eq_true_eq]
        rintro rfl
        exact h.1 (List.mem_map.mpr ⟨e, he, hp.symm⟩)
      simp [hnone, hp]
    · rw [List.find?_cons_of_neg (by simpa using hp), List.find?_cons_of_neg (by simpa using hp),
        List.find?_nil, Option.or_none]

/-- A scope in which no tag declares a prefix twice gives what the innermost tag declares. -/
theorem NamespaceScope.latest?_eq_declared? {s : NamespaceScope} {tags : List (List Declaration)}
    (hs : s.frames = tags.map List.reverse) (h : ∀ ds ∈ tags, (ds.map (·.pre)).Nodup)
    (pre : String) : s.latest? pre = declared? tags pre := by
  have hflat : s.declarations = (tags.map List.reverse).flatten := by
    rw [declarations, hs]
  unfold latest? declared?
  rw [hflat]
  clear hs hflat
  induction tags with
  | nil => rfl
  | cons ds rest ih =>
    rw [List.forall_mem_cons] at h
    rw [List.map_cons, List.flatten_cons, List.find?_append, find?_reverse h.1,
      List.findSome?_cons, ← ih h.2]
    cases ds.find? (·.pre = pre) <;> rfl

/-! ### Faithful writing -/

/-- How the prefixes of a start tag stand to the names of its event, within the open tags around
it. -/
structure StartTag.Resolves (tag : StartTag) (outer : List StartTag) : Prop where
  distinct : (tag.declarations.map (·.pre)).Nodup
  /-- The prefix of the element resolves to its namespace; without one, the default namespace is
  its namespace, or neither has one. -/
  element : if tag.pre = "" then
      (declared? ((tag :: outer).map StartTag.declarations) "").getD "" = tag.name.uri
    else declared? ((tag :: outer).map StartTag.declarations) tag.pre = some tag.name.uri
  /-- An attribute in a namespace has a prefix that resolves to it; any other has none. -/
  attributes : ∀ a ∈ tag.attributes, if a.2.name.uri = "" then a.1 = ""
    else a.1 ≠ "" ∧
      declared? ((tag :: outer).map StartTag.declarations) a.1 = some a.2.name.uri
  /-- Every prefix that the events declare means what they declare it for. -/
  kept : ∀ pre uri, pre ≠ "" → declared? ((tag :: outer).map StartTag.given) pre = some uri →
    declared? ((tag :: outer).map StartTag.declarations) pre = some uri
  /-- What is declared besides takes the default namespace back, or binds a generated prefix to the
  namespace of a name of the tag. -/
  added : ∀ d ∈ tag.added, d = ⟨"", ""⟩ ∨ (∃ n, d.pre = NamespaceScope.generatedPrefix n) ∧
    d.uri ≠ "" ∧ (d.uri = tag.name.uri ∨ ∃ a ∈ tag.attributes, d.uri = a.2.name.uri)

/-- Within some open tags, the innermost first, events are written as tags and texts. -/
inductive Faithful : List StartTag → List Event → List Written → Prop
  | nil {opened : List StartTag} : Faithful opened [] []
  | text {opened : List StartTag} {events : List Event} {ws : List Written} (s : String)
      (rest : Faithful opened events ws) : Faithful opened (.text s :: events) (.text s :: ws)
  /-- An element begins with a start tag. -/
  | opening {opened : List StartTag} {tag : StartTag} {events : List Event} {ws : List Written}
      (resolves : tag.Resolves opened) (rest : Faithful (tag :: opened) events ws) :
      Faithful opened (tag.event :: events) (.startTag tag false :: ws)
  /-- An element without content may be a single tag. -/
  | empty {opened : List StartTag} {tag : StartTag} {events : List Event} {ws : List Written}
      (resolves : tag.Resolves opened) (rest : Faithful opened events ws) :
      Faithful opened (tag.event :: .closing tag.name :: events) (.startTag tag true :: ws)
  /-- Any other element ends with an end tag that repeats the name of its start tag. -/
  | closing {opened : List StartTag} {tag : StartTag} {events : List Event} {ws : List Written}
      (rest : Faithful opened events ws) :
      Faithful (tag :: opened) (.closing tag.name :: events)
        (.endTag tag.pre tag.name.localPart :: ws)

/-- The declarations that an event gives are such as a tag may have: no prefix twice, not the
reserved one, only the empty prefix taken back, and no default namespace for an element in no
namespace. -/
def Event.DeclaresProperly : Event → Prop
  | .opening name _ declarations =>
    (declarations.map (·.pre)).Nodup ∧ (∀ d ∈ declarations, d.pre ≠ "xml") ∧
      (∀ d ∈ declarations, d.pre ≠ "" → d.uri ≠ "") ∧
      (name.uri = "" → ∀ d ∈ declarations, d.pre = "" → d.uri = "")
  | _ => True

instance (e : Event) : Decidable e.DeclaresProperly :=
  match e with
  | .opening name _ declarations => inferInstanceAs (Decidable ((declarations.map (·.pre)).Nodup ∧
      (∀ d ∈ declarations, d.pre ≠ "xml") ∧ (∀ d ∈ declarations, d.pre ≠ "" → d.uri ≠ "") ∧
      (name.uri = "" → ∀ d ∈ declarations, d.pre = "" → d.uri = "")))
  | .text _ => .isTrue trivial
  | .closing _ => .isTrue trivial

end XmlBinding
