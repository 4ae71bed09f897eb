import Mathlib.Data.List.Nodup
import Mathlib.Data.List.Perm.Subperm
import XmlBinding.Document.Writer
import XmlBinding.Lexical.Text
import XmlBinding.Proofs.Conversion.Run
import XmlBinding.Proofs.Document.Lookup

/-!
# New prefixes

Writing documents and marshalling both number the prefixes that they have to generate, and both look
for the next number whose prefix is unbound. `Searches` is this search as it goes, round by round
and without a bound. It ends because different numbers have different prefixes, and a scope has only
so many declarations: that many rounds may be in vain, and no more. `fresh` is what it ends with.
Since the prefix is unbound until then, a declaration of it hides nothing (`Generates`).
-/

namespace XmlBinding

/-- A declaration that an element in the making receives is declared within it. -/
theorem Draft.scope_declare (d : Draft) (e : Declaration) :
    { d with declarations := d.declarations ++ [e] }.scope = d.scope.declare e :=
  (NamespaceScope.declare_push d.outer d.declarations e).symm

namespace NamespaceScope

/-! ### Generated prefixes -/

/-- The characters of a generated prefix: two letters, then digits. -/
theorem toList_generatedPrefix (n : Nat) :
    (generatedPrefix n).toList = 'n' :: 's' :: Nat.toDigits 10 n := by
  have hd : (toString n).toList = Nat.toDigits 10 n := by
    rw [Nat.toString_eq_repr, Nat.toList_repr]
  rw [generatedPrefix, String.toList_append, hd]
  rfl

private theorem generatedPrefix_inj {m n : Nat} :
    generatedPrefix m = generatedPrefix n ↔ m = n := by
  constructor
  · intro h
    have hl := congrArg String.toList h
    rw [toList_generatedPrefix, toList_generatedPrefix] at hl
    have hd : Nat.toDigits 10 m = Nat.toDigits 10 n := (List.cons.inj (List.cons.inj hl).2).2
    have hv := congrArg (Nat.ofDigitChars 10 · 0) hd
    simpa only [Nat.ofDigitChars_ten_toDigits] using hv
  · rintro rfl
    rfl

private theorem isNameChar_of_isDigit {c : Char} (h : c.isDigit = true) : isNameChar c = true := by
  simp [isNameChar, h]

private theorem ne_colon_of_isDigit {c : Char} (h : c.isDigit = true) : c ≠ ':' := by
  rintro rfl
  exact absurd h (by decide)

/-- A generated prefix is a name without a colon. -/
theorem isNCName_generatedPrefix (n : Nat) : isNCName (generatedPrefix n).toList = true := by
  have hd (c : Char) (hc : c ∈ Nat.toDigits 10 n) : c.isDigit = true :=
    Nat.isDigit_of_mem_toDigits (by omega) (by omega) hc
  have hname : (Nat.toDigits 10 n).all isNameChar = true :=
    List.all_eq_true.mpr fun c hc ↦ isNameChar_of_isDigit (hd c hc)
  have hcolon : ':' ∉ Nat.toDigits 10 n := fun hc ↦ ne_colon_of_isDigit (hd ':' hc) rfl
  rw [toList_generatedPrefix]
  simp only [isNCName, isName, List.all_cons, hname, Bool.and_true, Bool.and_eq_true,
    Bool.not_eq_true', List.contains_eq_mem, decide_eq_false_iff_not, List.mem_cons, not_or]
  exact ⟨⟨by decide, by decide⟩, by decide, by decide, hcolon⟩

/-- No generated prefix is the reserved one. -/
theorem generatedPrefix_ne_xml (n : Nat) : generatedPrefix n ≠ "xml" := by
  intro h
  have hl := congrArg String.toList h
  rw [toList_generatedPrefix] at hl
  exact absurd (List.cons.inj hl).1 (by decide)

private theorem mem_prefixes_of_bound {s : NamespaceScope} {pre : String}
    (h : (s.namespaceOf? pre).isSome = true) (hx : pre ≠ "xml") :
    pre ∈ s.declarations.map (·.pre) := by
  obtain ⟨uri, huri⟩ := Option.isSome_iff_exists.mp h
  exact List.mem_map.mpr ⟨⟨pre, uri⟩, mem_of_namespaceOf? huri hx, rfl⟩

/-- There are no fewer declarations than generated prefixes of numbers in a row that are bound. -/
theorem le_length_declarations {s : NamespaceScope} {counter k : Nat}
    (h : ∀ n, counter < n → n ≤ counter + k → (s.namespaceOf? (generatedPrefix n)).isSome = true) :
    k ≤ s.declarations.length := by
  let tried := (List.range' (counter + 1) k).map generatedPrefix
  have hsub : tried ⊆ s.declarations.map (·.pre) := by
    intro pre hp
    obtain ⟨n, hn, rfl⟩ := List.mem_map.mp hp
    have hr := List.mem_range'_1.mp hn
    exact mem_prefixes_of_bound (h n (by omega) (by omega)) (generatedPrefix_ne_xml n)
  have hnodup : tried.Nodup :=
    List.Nodup.map (fun _ _ he ↦ generatedPrefix_inj.mp he) List.nodup_range'
  have hle := (List.subperm_of_subset hnodup hsub).length_le
  simpa only [tried, List.length_map, List.length_range'] using hle

/-! ### The search for an unbound prefix -/

/-- The search for an unbound generated prefix, from a number on, in so many rounds, to the number
that it ends with. Each round tries the prefix of the next number. -/
inductive Searches (s : NamespaceScope) : (counter rounds last : Nat) → Prop
  | ends {counter : Nat} (free : s.namespaceOf? (generatedPrefix (counter + 1)) = none) :
      Searches s counter 1 (counter + 1)
  /-- The prefix is bound, and the search goes on. -/
  | goesOn {counter rounds last : Nat}
      (bound : (s.namespaceOf? (generatedPrefix (counter + 1))).isSome = true)
      (rest : Searches s (counter + 1) rounds last) : Searches s counter (rounds + 1) last

namespace Searches

variable {s : NamespaceScope} {counter rounds last : Nat}

/-- Every round counts on by one. -/
theorem last_eq (h : s.Searches counter rounds last) : last = counter + rounds := by
  induction h with
  | ends free => rfl
  | goesOn bound rest ih => omega

private theorem rounds_pos (h : s.Searches counter rounds last) : 0 < rounds := by
  cases h <;> omega

/-- The search ends at an unbound prefix. -/
theorem unbound (h : s.Searches counter rounds last) :
    s.namespaceOf? (generatedPrefix last) = none := by
  induction h with
  | ends free => exact free
  | goesOn bound rest ih => exact ih

/-- The prefixes on the way are bound. -/
theorem bound (h : s.Searches counter rounds last) {n : Nat} (hn : counter < n) (hlast : n < last) :
    (s.namespaceOf? (generatedPrefix n)).isSome = true := by
  induction h with
  | ends free => omega
  | @goesOn counter rounds last bound rest ih =>
    by_cases he : n = counter + 1
    · rw [he]
      exact bound
    · exact ih (by omega) hlast

private theorem rounds_le (h : s.Searches counter rounds last) :
    rounds ≤ s.declarations.length + 1 := by
  have hlast := h.last_eq
  have hle : rounds - 1 ≤ s.declarations.length :=
    le_length_declarations fun n hn hn' ↦ h.bound hn (by omega)
  omega

private theorem unique {rounds' last' : Nat} (h : s.Searches counter rounds last)
    (h' : s.Searches counter rounds' last') : rounds' = rounds ∧ last' = last := by
  induction h generalizing rounds' with
  | ends free =>
    cases h' with
    | ends free' => exact ⟨rfl, rfl⟩
    | goesOn bound rest => simp [free] at bound
  | goesOn bound rest ih =>
    cases h' with
    | ends free => simp [free] at bound
    | goesOn bound' rest' =>
      obtain ⟨hrounds, hlast⟩ := ih rest'
      exact ⟨congrArg (· + 1) hrounds, hlast⟩

end Searches

/-- Within a bound the search ends as it does without one, or it has tried bound prefixes only. -/
private theorem freshAfter_cases (s : NamespaceScope) (bound counter : Nat) :
    (∃ rounds, s.Searches counter rounds (s.freshAfter bound counter)) ∨
      ∀ n, counter < n → n ≤ counter + (bound + 1) →
        (s.namespaceOf? (generatedPrefix n)).isSome = true := by
  induction bound generalizing counter with
  | zero =>
    cases hb : s.namespaceOf? (generatedPrefix (counter + 1)) with
    | none => exact .inl ⟨1, .ends hb⟩
    | some uri =>
      refine .inr fun n hn hn' ↦ ?_
      have he : n = counter + 1 := by omega
      rw [he, hb]
      rfl
  | succ bound ih =>
    rw [freshAfter]
    cases hb : s.namespaceOf? (generatedPrefix (counter + 1)) with
    | none => exact .inl ⟨1, .ends hb⟩
    | some uri =>
      have hbound : (s.namespaceOf? (generatedPrefix (counter + 1))).isSome = true := by
        rw [hb]
        rfl
      rw [if_neg (by simp)]
      rcases ih (counter + 1) with ⟨rounds, hrest⟩ | hall
      · exact .inl ⟨rounds + 1, .goesOn hbound hrest⟩
      · refine .inr fun n hn hn' ↦ ?_
        by_cases he : n = counter + 1
        · rw [he]
          exact hbound
        · exact hall n (by omega) (by omega)

/-- The search ends at the fresh number: the declarations do not suffice to bind all prefixes that
are tried. -/
theorem searches_fresh (s : NamespaceScope) (counter : Nat) :
    ∃ rounds, s.Searches counter rounds (s.fresh counter) := by
  rcases freshAfter_cases s s.declarations.length counter with hends | hall
  · exact hends
  · have hle := le_length_declarations hall
    omega

-- Every declaration may cost a round.
example : (⟨[[⟨"ns2", "urn:b"⟩], [⟨"ns1", "urn:a"⟩]]⟩ : NamespaceScope).fresh 0 = 3 := by decide

/-- The prefix of the fresh number is unbound. -/
theorem namespaceOf?_fresh (s : NamespaceScope) (counter : Nat) :
    s.namespaceOf? (generatedPrefix (s.fresh counter)) = none := by
  obtain ⟨rounds, hsearches⟩ := s.searches_fresh counter
  exact hsearches.unbound

/-! ### The declaration of a generated prefix -/

/-- The prefix of the number is generated for a namespace: the search ends with it, and a
declaration of it is harmless. -/
structure Generates (s : NamespaceScope) (counter : Nat) (uri : String) (n : Nat) : Prop where
  /-- The search ends with the number, and in no other way, after at most one more round than there
  are declarations. -/
  ends : ∃ rounds ≤ s.declarations.length + 1,
    ∀ rounds' last, s.Searches counter rounds' last ↔ rounds' = rounds ∧ last = n
  near : counter < n ∧ n ≤ counter + s.declarations.length + 1
  unbound : s.namespaceOf? (generatedPrefix n) = none
  means : uri ≠ "" →
    (s.declare ⟨generatedPrefix n, uri⟩).namespaceOf? (generatedPrefix n) = some uri
  /-- All other prefixes mean what they meant, or nothing, as before. -/
  others : ∀ pre, pre ≠ generatedPrefix n →
    (s.declare ⟨generatedPrefix n, uri⟩).namespaceOf? pre = s.namespaceOf? pre
  /-- All prefixes that meant a namespace mean the same one. -/
  used : ∀ pre u, s.namespaceOf? pre = some u →
    (s.declare ⟨generatedPrefix n, uri⟩).namespaceOf? pre = some u
  prefixes : ∀ u, u ≠ uri →
    (s.declare ⟨generatedPrefix n, uri⟩).prefixOf? u = s.prefixOf? u

/-- The prefix of the fresh number is generated. -/
theorem generates_fresh (s : NamespaceScope) (counter : Nat) (uri : String) :
    s.Generates counter uri (s.fresh counter) := by
  obtain ⟨rounds, hsearches⟩ := s.searches_fresh counter
  have hrounds := hsearches.rounds_le
  have hfree := hsearches.unbound
  have hothers (pre : String) (hpre : pre ≠ generatedPrefix (s.fresh counter)) :
      (s.declare ⟨generatedPrefix (s.fresh counter), uri⟩).namespaceOf? pre =
        s.namespaceOf? pre :=
    namespaceOf?_declare_of_ne hpre.symm
  constructor
  case ends =>
    refine ⟨rounds, hrounds, fun rounds' last ↦ ⟨hsearches.unique, ?_⟩⟩
    rintro ⟨rfl, rfl⟩
    exact hsearches
  case near =>
    have hlast := hsearches.last_eq
    have hpos := hsearches.rounds_pos
    omega
  case unbound => exact hfree
  case means =>
    exact fun hu ↦ namespaceOf?_declare_self (generatedPrefix_ne_xml _) fun _ ↦ hu
  case others => exact hothers
  case used =>
    intro pre u hmeans
    have hpre : pre ≠ generatedPrefix (s.fresh counter) := by
      rintro rfl
      rw [hfree] at hmeans
      cases hmeans
    rw [hothers pre hpre, hmeans]
  case prefixes => exact fun u hu ↦ prefixOf?_declare hfree hu.symm

/-! ### Who generates prefixes -/

/-- No prefix is found for the namespace, or only the empty one, which does not serve. -/
def Lacks (s : NamespaceScope) (uri : String) : Prop := (s.prefixOf? uri).getD "" = ""

instance (s : NamespaceScope) (uri : String) : Decidable (s.Lacks uri) :=
  inferInstanceAs (Decidable (_ = _))

/-- Then there is no prefix in scope that serves. -/
theorem Lacks.filter_eq_none {s : NamespaceScope} {uri : String} (h : s.Lacks uri) :
    (s.prefixOf? uri).filter (· ≠ "") = none := by
  unfold Lacks at h
  cases hp : s.prefixOf? uri with
  | none => rfl
  | some pre =>
    rw [hp, Option.getD_some] at h
    simp [Option.filter, h]

/-- A writer generates the prefix of a namespace that has none. -/
theorem writer_choosePrefix_of_lacks {w : Writer} {uri : String} (h : w.scope.Lacks uri) :
    w.choosePrefix uri =
      { w with generated := w.scope.fresh w.generated }.introduce
        ⟨generatedPrefix (w.scope.fresh w.generated), uri⟩ := by
  unfold Writer.choosePrefix
  rw [h.filter_eq_none]

/-- Marshalling generates the prefix of a namespace that has none, if the one that it prefers is
bound. -/
theorem choosePrefix_of_lacks {s : NamespaceScope} {counter : Nat} {uri : String}
    (h : s.Lacks uri)
    (htaken : ∀ pre, preferredPrefix? uri = some pre → (s.namespaceOf? pre).isSome = true) :
    s.choosePrefix counter uri =
      ⟨generatedPrefix (s.fresh counter), some ⟨generatedPrefix (s.fresh counter), uri⟩,
        s.fresh counter⟩ := by
  have hnone : ((preferredPrefix? uri).filter fun pre ↦ (s.namespaceOf? pre).isNone) = none := by
    cases hp : preferredPrefix? uri with
    | none => rfl
    | some pre =>
      have hbound : (s.namespaceOf? pre).isNone = false :=
        Option.isNone_eq_false_iff.mpr (htaken pre hp)
      simp [Option.filter, hbound]
  unfold choosePrefix
  rw [h.filter_eq_none, hnone]

/-- An element in the making receives the declaration that a prefix needs. -/
theorem gives_prefixFor {uri : String} (hu : uri ≠ "") (d : Draft) (log : WriteLog) :
    Drafting.Gives (Drafting.prefixFor uri) d log (d.scope.choosePrefix log.generated uri).pre
      { d with declarations :=
          d.declarations ++ (d.scope.choosePrefix log.generated uri).declaration.toList }
      { log with generated := (d.scope.choosePrefix log.generated uri).generated } := by
  unfold Drafting.prefixFor
  rw [if_neg hu]
  rfl

/-- In every scope and from every number on, the search for a generated prefix ends after at most
one more round than there are declarations, with a prefix that is unbound, so that its declaration
leaves all other prefixes and all that are in use as they are. A writer of documents searches so
whenever a namespace has no prefix, and declares the new one on the tag at hand. Marshalling does
the same when the prefix that it prefers is not to be had either. -/
theorem generates_unbound (s : NamespaceScope) (counter : Nat) (uri : String) :
    ∃ n, s.Generates counter uri n ∧
      (s.Lacks uri → ∀ opened pending,
        (⟨s, opened, pending, counter⟩ : Writer).choosePrefix uri =
          ⟨generatedPrefix n, some ⟨generatedPrefix n, uri⟩,
            ⟨s.declare ⟨generatedPrefix n, uri⟩, opened, pending, n⟩⟩) ∧
      (s.Lacks uri →
        (∀ pre, preferredPrefix? uri = some pre → (s.namespaceOf? pre).isSome = true) →
        s.choosePrefix counter uri =
            ⟨generatedPrefix n, some ⟨generatedPrefix n, uri⟩, n⟩ ∧
          (uri ≠ "" → ∀ d log, d.scope = s → log.generated = counter →
            let declared : Draft :=
              { d with declarations := d.declarations ++ [⟨generatedPrefix n, uri⟩] }
            declared.scope = s.declare ⟨generatedPrefix n, uri⟩ ∧
              Drafting.Gives (Drafting.prefixFor uri) d log (generatedPrefix n) declared
                { log with generated := n })) := by
  refine ⟨s.fresh counter, s.generates_fresh counter uri,
    fun h opened pending ↦ writer_choosePrefix_of_lacks h,
    fun h htaken ↦ ⟨choosePrefix_of_lacks h htaken, fun hu d log hs hcounter ↦ ?_⟩⟩
  subst hs hcounter
  have hgives := gives_prefixFor hu d log
  rw [choosePrefix_of_lacks h htaken] at hgives
  exact ⟨d.scope_declare _, hgives⟩

/-- An element in the making whose schema namespace is the default one. The prefix that is preferred
for it and two generated ones stand for other namespaces. -/
def crowdedDraft : Draft :=
  ⟨⟨"urn:x", "v"⟩, ⟨[[⟨"xs", "urn:x"⟩, ⟨"ns9", "urn:a"⟩]]⟩, [],
    [⟨"", QName.schemaUri⟩, ⟨"ns10", "urn:b"⟩], []⟩

/-- The search passes over the two numbers that are taken, for a writer and for a draft. -/
theorem generates_unbound_crowded :
    (crowdedDraft.scope.Lacks QName.schemaUri ∧
        ∀ pre, preferredPrefix? QName.schemaUri = some pre →
          (crowdedDraft.scope.namespaceOf? pre).isSome = true) ∧
      crowdedDraft.scope.Generates 8 QName.schemaUri 11 ∧
      ((⟨crowdedDraft.scope, [], false, 8⟩ : Writer).choosePrefix QName.schemaUri).pre = "ns11" ∧
      Drafting.Gives (Drafting.prefixFor QName.schemaUri) crowdedDraft ⟨8, []⟩ "ns11"
        { crowdedDraft with declarations :=
            [⟨"", QName.schemaUri⟩, ⟨"ns10", "urn:b"⟩, ⟨"ns11", QName.schemaUri⟩] } ⟨11, []⟩ := by
  have hlacks : crowdedDraft.scope.Lacks QName.schemaUri := by decide
  have htaken : ∀ pre, preferredPrefix? QName.schemaUri = some pre →
      (crowdedDraft.scope.namespaceOf? pre).isSome = true := by
    intro pre hpre
    obtain rfl : "xs" = pre := Option.some.inj hpre
    decide
  have hsearches : crowdedDraft.scope.Searches 8 3 11 :=
    .goesOn (by decide) (.goesOn (by decide) (.ends (by decide)))
  obtain ⟨n, hgenerates, hwriter, hmarshalling⟩ :=
    generates_unbound crowdedDraft.scope 8 QName.schemaUri
  obtain ⟨rounds, -, honly⟩ := hgenerates.ends
  obtain ⟨-, rfl⟩ := (honly 3 11).mp hsearches
  have hgives := ((hmarshalling hlacks htaken).2 (by decide) crowdedDraft ⟨8, []⟩ rfl rfl).2
  exact ⟨⟨hlacks, htaken⟩, hgenerates, congrArg (·.pre) (hwriter hlacks [] false), hgives⟩

end NamespaceScope

end XmlBinding
