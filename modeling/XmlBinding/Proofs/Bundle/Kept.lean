import Mathlib.Data.List.Induction
import XmlBinding.Proofs.Bundle.Reload

/-!
# What a builder keeps

A builder is changed in place, call by call, and goes on after calls that it refuses.
`BundleBuilder.make` is such a call, one change after the other; it comes to the same as the call on
a builder as a value, so that a call that is refused has changed nothing (`BundleBuilder.run_make`).
What a row of calls leaves behind is then a matter of those that were accepted:
`BundleBuilder.Records` says how, and one call keeps it.
-/

namespace XmlBinding

/-- The path consists of plain names, at least one, and starts where it is used. -/
structure Path.IsPlain (p : Path) : Prop where
  relative : ¬ p.IsRooted
  steps : ∃ names : List String, names ≠ [] ∧ p.components = names.map .name ∧
    ∀ name ∈ names, name ∉ ["", ".", ".."] ∧ '/' ∉ name.toList

/-- A path inside is plain. -/
theorem Path.isPlain_of_isInside {p : Path} (h : p.isInside) : p.IsPlain := by
  obtain ⟨names, -, hnames⟩ := names_of_isInside h
  refine ⟨hnames.not_isRooted, names, hnames.ne_nil, hnames.components_eq,
    fun name hname ↦ ⟨?_, ?_⟩⟩
  · have hstep := hnames.componentOf? hname
    simp only [List.mem_cons, List.not_mem_nil, or_false, not_or]
    refine ⟨?_, ?_, ?_⟩ <;> rintro rfl <;> cases hstep
  · exact slash_not_mem_of_mem_pieces (hnames.sublist.subset hname)

namespace Bundle

private theorem find?_replaceDocument (documents : List SchemaDocument) (s : SchemaDocument)
    (path : Path) :
    (replaceDocument documents s).find? (·.path.components = path.components) =
      if s.path.components = path.components then some s
      else documents.find? (·.path.components = path.components) := by
  rw [replaceDocument, List.find?_append, List.find?_filter]
  by_cases hs : s.path.components = path.components
  · have hnone : documents.find? (fun t ↦ decide (decide (t.path.components ≠ s.path.components) ∧
        decide (t.path.components = path.components))) = none := by
      rw [List.find?_eq_none]
      intro t _ ht
      simp only [decide_eq_true_eq] at ht
      exact ht.1 (ht.2.trans hs.symm)
    rw [hnone, if_pos hs, Option.none_or, List.find?_singleton, decide_eq_true hs]
    rfl
  · have hsame (t : SchemaDocument) : decide (decide (t.path.components ≠ s.path.components) ∧
        decide (t.path.components = path.components)) =
          decide (t.path.components = path.components) := by
      simp only [decide_eq_true_eq]
      refine decide_eq_decide.mpr (and_iff_right_of_imp fun ht heq ↦ hs ?_)
      exact heq.symm.trans ht
    rw [funext hsame, if_neg hs, List.find?_singleton, decide_eq_false hs]
    exact Option.or_none

/-- Of the documents of a path, the one that was added last is the latest. -/
theorem find?_latest (documents : List SchemaDocument) (path : Path) :
    (latest documents).find? (·.path.components = path.components) =
      documents.reverse.find? (·.path.components = path.components) := by
  induction documents using List.reverseRecOn with
  | nil => rfl
  | append_singleton documents s ih =>
    have hlast : latest (documents ++ [s]) = replaceDocument (latest documents) s := by
      rw [latest, List.foldl_append]
      rfl
    rw [hlast, find?_replaceDocument, ih, List.reverse_append, List.reverse_singleton,
      List.singleton_append, List.find?_cons]
    by_cases hs : s.path.components = path.components <;> simp [hs]

end Bundle

namespace BundleBuilder

open XmlBinding.Bundle

/-! ### Calls in place -/

/-- A step that changes a builder in place. It may fail, and keeps what it has changed when it
does. -/
abbrev Change := ExceptT Error (StateM BundleBuilder)

/-- Fail if the builder is closed. -/
def checkWritable : Change Unit := do
  if (← get).closed then throw .bundleClosed

/-- Make a call in place. A document of the same path is taken out before the new one is put in. -/
def make : Call → Change Unit
  | .setDescriptor descriptor => do
    checkWritable
    modify ({ · with descriptor })
  | .addSchema path text => do
    checkWritable
    let document ← MonadExcept.ofExcept (SchemaDocument.parse path text)
    modify fun b ↦
      { b with schemas := b.schemas.filter (·.path.components ≠ document.path.components) }
    modify fun b ↦ { b with schemas := b.schemas ++ [document] }
  | .addCompiled native => do
    checkWritable
    if native ∉ (← get).compiled then
      modify fun b ↦ { b with compiled := b.compiled ++ [native] }
  | .nativeSource _ => throw (.unsupported "native source output from an in-memory bundle")
  | .close => modify close

/-- A call in place does what the call on a builder as a value does, and nothing if that fails. -/
theorem run_make (b : BundleBuilder) (call : Call) :
    (make call).run.run b =
      match b.perform call with
      | .ok b' => (.ok (), b')
      | .error error => (.error error, b) := by
  obtain ⟨descriptor, schemas, compiled, closed⟩ := b
  cases call with
  | setDescriptor descriptor => cases closed <;> rfl
  | addSchema path text =>
    cases closed with
    | true => rfl
    | false =>
      have hmake : (make (.addSchema path text)).run.run ⟨descriptor, schemas, compiled, false⟩ =
          (do
            let document ← MonadExcept.ofExcept (SchemaDocument.parse path text)
            modify fun b ↦ { b with
              schemas := b.schemas.filter (·.path.components ≠ document.path.components) }
            modify fun b ↦ { b with schemas := b.schemas ++ [document] } : Change Unit).run.run
              ⟨descriptor, schemas, compiled, false⟩ := rfl
      have hperform : perform ⟨descriptor, schemas, compiled, false⟩ (.addSchema path text) = do
          let document ← SchemaDocument.parse path text
          let others := schemas.filter fun d ↦ d.path.components ≠ path.components
          return ⟨descriptor, others ++ [document], compiled, false⟩ := rfl
      rw [hmake, hperform]
      cases hparse : SchemaDocument.parse path text with
      | error error => rfl
      | ok document =>
        obtain rfl := (SchemaDocument.parse_cases hparse).2.1
        rfl
  | addCompiled native =>
    cases closed with
    | true => rfl
    | false =>
      have hmake : (make (.addCompiled native)).run.run ⟨descriptor, schemas, compiled, false⟩ =
          (if native ∉ compiled then
            modify fun b ↦ { b with compiled := b.compiled ++ [native] }
          else pure () : Change Unit).run.run ⟨descriptor, schemas, compiled, false⟩ := rfl
      have hperform : perform ⟨descriptor, schemas, compiled, false⟩ (.addCompiled native) =
          .ok (if native ∈ compiled then ⟨descriptor, schemas, compiled, false⟩
            else ⟨descriptor, schemas, compiled ++ [native], false⟩) := rfl
      rw [hmake, hperform]
      by_cases h : native ∈ compiled
      · rw [if_neg (not_not_intro h), if_pos h]
        rfl
      · rw [if_pos h, if_neg h]
        rfl
  | nativeSource native => rfl
  | close => rfl

/-- A call that is refused changes nothing. -/
theorem eq_of_make_error {b b' : BundleBuilder} {call : Call} {error : Error}
    (h : (make call).run.run b = (.error error, b')) : b' = b := by
  rw [run_make] at h
  split at h <;> cases h
  rfl

/-- What a call that is accepted leaves behind is what it makes of a builder as a value. -/
private theorem perform_of_make_ok {b b' : BundleBuilder} {call : Call}
    (h : (make call).run.run b = (.ok (), b')) : b.perform call = .ok b' := by
  rw [run_make] at h
  split at h <;> cases h
  assumption

/-! ### Rows of calls -/

/-- The builder after calls, some of which it may have refused. -/
def after (b : BundleBuilder) : List Call → BundleBuilder
  | [] => b
  | call :: calls => after ((make call).run.run b).2 calls

/-- The calls of a row that are accepted, each by the builder as the calls before it have left
it. -/
def accepted (b : BundleBuilder) : List Call → List Call
  | [] => []
  | call :: calls =>
    let (result, b') := (make call).run.run b
    if result.isOk then call :: accepted b' calls else accepted b' calls

/-- The schema documents that calls add, in order. -/
def documentsOf (calls : List Call) : List SchemaDocument :=
  calls.filterMap fun
    | .addSchema path text => (SchemaDocument.parse path text).toOption
    | _ => none

/-- The native types that calls add, in order. -/
def nativesOf (calls : List Call) : List NativeId :=
  calls.filterMap fun
    | .addCompiled native => some native
    | _ => none

/-- The documents of calls one after the other. -/
theorem documentsOf_append (calls more : List Call) :
    documentsOf (calls ++ more) = documentsOf calls ++ documentsOf more := List.filterMap_append

/-- The native types of calls one after the other. -/
theorem nativesOf_append (calls more : List Call) :
    nativesOf (calls ++ more) = nativesOf calls ++ nativesOf more := List.filterMap_append

/-- A builder holds what the calls that it accepted have added: of every path the latest document,
and every native type once, in the order of the first calls for them. -/
structure Records (history : List Call) (b : BundleBuilder) : Prop where
  schemas : b.schemas = latest (documentsOf history)
  compiled (native : NativeId) : native ∈ b.compiled ↔ native ∈ nativesOf history
  ordered : b.compiled.Pairwise fun m n ↦ (nativesOf history).idxOf m < (nativesOf history).idxOf n

/-- Nothing is in a builder without calls. -/
theorem records_empty : Records [] empty := ⟨rfl, fun _ ↦ Iff.rfl, .nil⟩

/-- What a builder holds stays the same with a call that adds nothing. -/
private theorem Records.keep {history : List Call} {b b' : BundleBuilder} {call : Call}
    (h : Records history b) (hdocuments : documentsOf [call] = [])
    (hnatives : nativesOf [call] = []) (hschemas : b'.schemas = b.schemas)
    (hcompiled : b'.compiled = b.compiled) :
    Records (history ++ [call]) b' := by
  have hd : documentsOf (history ++ [call]) = documentsOf history := by
    rw [documentsOf_append, hdocuments, List.append_nil]
  have hn : nativesOf (history ++ [call]) = nativesOf history := by
    rw [nativesOf_append, hnatives, List.append_nil]
  constructor
  · rw [hd, hschemas, h.schemas]
  · rw [hn, hcompiled]
    exact h.compiled
  · rw [hn, hcompiled]
    exact h.ordered

private theorem pairwise_idxOf_concat {natives kept : List NativeId} {native : NativeId}
    (hmem : ∀ n, n ∈ kept ↔ n ∈ natives)
    (h : kept.Pairwise fun m n ↦ natives.idxOf m < natives.idxOf n) (hnew : native ∉ natives) :
    (kept ++ [native]).Pairwise fun m n ↦
      (natives ++ [native]).idxOf m < (natives ++ [native]).idxOf n := by
  rw [List.pairwise_append]
  refine ⟨h.imp_of_mem fun hm hn hlt ↦ ?_, List.pairwise_singleton _ _, fun m hm n hn ↦ ?_⟩
  · rwa [List.idxOf_append_of_mem ((hmem _).mp hm), List.idxOf_append_of_mem ((hmem _).mp hn)]
  · rw [List.mem_singleton.mp hn, List.idxOf_append_of_mem ((hmem m).mp hm),
      List.idxOf_append_of_notMem hnew]
    have hlt := List.idxOf_lt_length_iff.mpr ((hmem m).mp hm)
    omega

private theorem Records.perform {history : List Call} {b b' : BundleBuilder} {call : Call}
    (h : Records history b) (hcall : b.perform call = .ok b') : Records (history ++ [call]) b' := by
  cases call with
  | setDescriptor descriptor =>
    cases of_writable hcall
    exact h.keep rfl rfl rfl rfl
  | addSchema path text =>
    have hcall := of_writable hcall
    cases hparse : SchemaDocument.parse path text with
    | error error =>
      rw [hparse] at hcall
      cases hcall
    | ok s =>
      rw [hparse] at hcall
      cases hcall
      obtain rfl := (SchemaDocument.parse_cases hparse).2.1
      have hd : documentsOf (history ++ [.addSchema s.path text]) = documentsOf history ++ [s] := by
        have hown : documentsOf [.addSchema s.path text] = [s] := by
          rw [documentsOf]
          simp only [List.filterMap_cons, hparse]
          rfl
        rw [documentsOf_append, hown]
      have hn : nativesOf (history ++ [.addSchema s.path text]) = nativesOf history :=
        (nativesOf_append _ _).trans (List.append_nil _)
      constructor
      · rw [hd, latest, List.foldl_append, ← latest, ← h.schemas]
        rfl
      · rw [hn]
        exact h.compiled
      · rw [hn]
        exact h.ordered
  | addCompiled native =>
    cases of_writable hcall
    have hn : nativesOf (history ++ [.addCompiled native]) = nativesOf history ++ [native] :=
      nativesOf_append _ _
    have hd : documentsOf (history ++ [.addCompiled native]) = documentsOf history :=
      (documentsOf_append _ _).trans (List.append_nil _)
    by_cases hmem : native ∈ b.compiled
    · rw [if_pos hmem]
      have hmem' := (h.compiled native).mp hmem
      refine ⟨by rw [hd, h.schemas], fun n ↦ ?_, ?_⟩
      · rw [hn, List.mem_append, List.mem_singleton, h.compiled n]
        exact ⟨.inl, fun hor ↦ hor.elim id fun heq ↦ heq ▸ hmem'⟩
      · rw [hn]
        refine h.ordered.imp_of_mem fun hm hn hlt ↦ ?_
        rwa [List.idxOf_append_of_mem ((h.compiled _).mp hm),
          List.idxOf_append_of_mem ((h.compiled _).mp hn)]
    · rw [if_neg hmem]
      refine ⟨by rw [hd]; exact h.schemas, fun n ↦ ?_, ?_⟩
      · rw [hn, List.mem_append, List.mem_append, h.compiled n]
      · rw [hn]
        exact pairwise_idxOf_concat h.compiled h.ordered (mt (h.compiled native).mpr hmem)
  | nativeSource native => cases hcall
  | close =>
    cases hcall
    exact h.keep rfl rfl rfl rfl

/-- After a row of calls a builder is sound, and holds what those that it accepted have added. -/
theorem Records.after {history : List Call} {b : BundleBuilder} (h : Records history b)
    (hsound : b.IsSound) (calls : List Call) :
    Records (history ++ b.accepted calls) (b.after calls) ∧ (b.after calls).IsSound := by
  induction calls generalizing history b with
  | nil =>
    rw [accepted, List.append_nil]
    exact ⟨h, hsound⟩
  | cons call calls ih =>
    rw [accepted, BundleBuilder.after]
    rcases hmake : (make call).run.run b with ⟨error | ⟨⟩, b'⟩
    · obtain rfl := eq_of_make_error hmake
      exact ih h hsound
    · have hperform := perform_of_make_ok hmake
      have hrest := ih (h.perform hperform) (hsound.perform hperform)
      rwa [List.append_assoc] at hrest

/-- A closed builder stays as it is. -/
theorem after_of_closed {b : BundleBuilder} (h : b.closed = true) (calls : List Call) :
    b.after calls = b := by
  induction calls with
  | nil => rfl
  | cons call calls ih =>
    have hcall : ((make call).run.run b).2 = b := by
      obtain ⟨descriptor, schemas, compiled, closed⟩ := b
      cases h
      cases call <;> rfl
    rw [after, hcall, ih]

/-- Calls one after the other. -/
theorem after_append (b : BundleBuilder) (calls more : List Call) :
    b.after (calls ++ more) = (b.after calls).after more := by
  induction calls generalizing b with
  | nil => rfl
  | cons call calls ih => exact ih _

/-- A call that is refused changes nothing, whatever the builder. After any row of calls, the paths
of the documents differ and are plain; the document of a path is the last one that was accepted for
it; the native types are those that were accepted, each once, in the order of the first calls for
them; and once it is closed, no calls change the builder any more. -/
theorem after_invariant (calls : List Call) :
    (∀ (b b' : BundleBuilder) (call : Call) (error : Error),
      (make call).run.run b = (.error error, b') → b' = b) ∧
    AreDistinct (empty.after calls).schemas ∧
    (∀ s ∈ (empty.after calls).schemas, s.path.IsPlain) ∧
    (∀ path : Path,
      (empty.after calls).schemas.find? (·.path.components = path.components) =
        (documentsOf (empty.accepted calls)).reverse.find? (·.path.components = path.components)) ∧
    (empty.after calls).compiled.Nodup ∧
    (∀ native, native ∈ (empty.after calls).compiled ↔
      native ∈ nativesOf (empty.accepted calls)) ∧
    ((empty.after calls).compiled.Pairwise fun m n ↦
      (nativesOf (empty.accepted calls)).idxOf m < (nativesOf (empty.accepted calls)).idxOf n) ∧
    ∀ more, empty.after (calls ++ .close :: more) = (empty.after calls).close := by
  obtain ⟨hrecords, hsound⟩ := records_empty.after isSound_empty calls
  rw [List.nil_append] at hrecords
  refine ⟨fun _ _ _ _ ↦ eq_of_make_error, hsound.distinct, fun s hs ↦ ?_, fun path ↦ ?_, ?_,
    hrecords.compiled, hrecords.ordered, fun more ↦ ?_⟩
  · exact Path.isPlain_of_isInside (SchemaDocument.parse_cases (hsound.parsed s hs)).1
  · rw [hrecords.schemas, find?_latest]
  · exact hrecords.ordered.imp fun hlt heq ↦ absurd (heq ▸ hlt) (Nat.lt_irrefl _)
  · rw [after_append]
    exact after_of_closed rfl more

end BundleBuilder

end XmlBinding
