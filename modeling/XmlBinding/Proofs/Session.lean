import XmlBinding.Proofs.Marshal.Document
import XmlBinding.Session

/-!
# Sessions make one call

Whatever calls are made on a session, one after the other, only the first one has an effect. It
finishes the session by its own result, and every later one is refused: session, streams and devices
stay as they are (`Session.make_one_call`). A document goes to a stream as a whole, or not at all.
-/

namespace XmlBinding

namespace SessionState

variable {α : Type}

private theorem ofResult_eq_completed_iff {result : Except Error α} :
    ofResult result = .completed ↔ ∃ a, result = .ok a := by
  cases result <;> simp [ofResult]

private theorem ofResult_eq_failed_iff {result : Except Error α} :
    ofResult result = .failed ↔ ∃ error, result = .error error := by
  cases result <;> simp [ofResult]

private theorem ofResult_ne_idle (result : Except Error α) : ofResult result ≠ .idle := by
  cases result <;> simp [ofResult]

private theorem ofResult_map {β : Type} (f : α → β) (result : Except Error α) :
    ofResult (result.map f) = ofResult result := by
  cases result <;> rfl

end SessionState

namespace Session

/-! ### Single calls -/

section Calls

variable {α : Type} {s : Session}

/-- A call that has made no document writes nothing, and leaves the session as it is. -/
theorem deliver_of_error {options : Options} {fault : Option IoFault} {made : Outcome EventStream}
    {error : Error} (h : made.result = .error error) :
    deliver options fault (made, s) = (⟨.error error, made.raised⟩, s) := by
  obtain ⟨result, raised⟩ := made
  dsimp only at h
  subst h
  rfl

/-- The first call leaves the session in the state of its result. -/
theorem state_run (h : s.state = .idle) (call : Outcome α) :
    (s.run call).2.state = .ofResult (s.run call).1.result := by
  simp [run, start, h, execute, finish]

/-- A document that is written leaves the session in the state of what comes of writing it. -/
private theorem state_deliver {options : Options} {fault : Option IoFault}
    {called : Outcome EventStream × Session} (h : called.2.state = .ofResult called.1.result) :
    (deliver options fault called).2.state = .ofResult (deliver options fault called).1.result := by
  obtain ⟨made, s⟩ := called
  cases hr : made.result with
  | error error =>
    rw [deliver_of_error hr, h, hr]
    rfl
  | ok stream =>
    simp only [deliver, hr]
    rfl

/-- A document that was still to be read leaves the session in the state of its result. -/
private theorem state_unmarshalRead (h : s.state = .idle) (c : Context) (options : Options)
    (document : Except Error EventStream) :
    (s.unmarshalRead c options document).2.state =
      .ofResult (s.unmarshalRead c options document).1.result := by
  cases document <;> simp [unmarshalRead, start, h, execute, finish, Outcome.failure]

private theorem unmarshalRead_of_used (h : s.state ≠ .idle) (c : Context) (options : Options)
    (document : Except Error EventStream) :
    s.unmarshalRead c options document = (.failure .sessionReused, s) := by
  unfold unmarshalRead
  rw [start_of_used h]

end Calls

/-! ### Calls one after the other -/

section Sequences

variable {κ σ α : Type}

/-- What calls come to, one after the other: their answers, the session behind them, and what is
around it. -/
def runAll (make : κ → Session → σ → Except Error α × Session × σ) :
    List κ → Session → σ → List (Except Error α) × Session × σ
  | [], s, around => ([], s, around)
  | call :: later, s, around =>
    let (answer, s, around) := make call s around
    let (answers, s, around) := runAll make later s around
    (answer :: answers, s, around)

/-- Calls that all keep to the rule of sessions. -/
structure KeepsRule (make : κ → Session → σ → Except Error α × Session × σ) : Prop where
  /-- A call on a fresh session finishes it by its answer. -/
  finishes (call : κ) (s : Session) (around : σ) (h : s.state = .idle) :
    (make call s around).2.1.state = .ofResult (make call s around).1
  /-- A call on a used session is refused and changes nothing. -/
  refuses (call : κ) (s : Session) (around : σ) (h : s.state ≠ .idle) :
    make call s around = (.error .sessionReused, s, around)

/-- Of all rows of calls only the first one has an effect. It leaves the session completed if it
gives an answer, and failed if it gives an error. -/
def MakesOneCall (make : κ → Session → σ → Except Error α × Session × σ) : Prop :=
  ∀ first later around,
    let made := make first .fresh around
    (made.2.1.state = .completed ↔ ∃ a, made.1 = .ok a) ∧
    (made.2.1.state = .failed ↔ ∃ error, made.1 = .error error) ∧
    runAll make (first :: later) .fresh around =
      (made.1 :: List.replicate later.length (.error .sessionReused), made.2)

variable {make : κ → Session → σ → Except Error α × Session × σ}

private theorem KeepsRule.runAll_of_used (h : KeepsRule make) {s : Session} (hs : s.state ≠ .idle)
    (calls : List κ) (around : σ) :
    runAll make calls s around =
      (List.replicate calls.length (.error .sessionReused), s, around) := by
  induction calls with
  | nil => rfl
  | cons call later ih =>
    rw [runAll, h.refuses call s around hs]
    dsimp only
    rw [ih]
    rfl

/-- Calls that keep to the rule of sessions are made once. -/
theorem KeepsRule.makesOneCall (h : KeepsRule make) : MakesOneCall make := by
  intro first later around made
  have hstate : made.2.1.state = .ofResult made.1 := h.finishes first .fresh around rfl
  have hused : made.2.1.state ≠ .idle := by
    rw [hstate]
    exact SessionState.ofResult_ne_idle made.1
  -- The first call has used the session, so that the others meet a used one.
  have hlater := h.runAll_of_used hused later made.2.2
  rw [hstate, runAll]
  refine ⟨SessionState.ofResult_eq_completed_iff, SessionState.ofResult_eq_failed_iff, ?_⟩
  change (made.1 :: (runAll make later made.2.1 made.2.2).1,
    (runAll make later made.2.1 made.2.2).2) = _
  rw [hlater]

/-- What a row of calls comes to if the first one is known. -/
theorem MakesOneCall.runAll_eq (h : MakesOneCall make) {first : κ} {around : σ}
    {made : Except Error α × Session × σ} (hfirst : make first .fresh around = made)
    (later : List κ) :
    runAll make (first :: later) .fresh around =
      (made.1 :: List.replicate later.length (.error .sessionReused), made.2) := by
  subst hfirst
  exact (h first later around).2.2

end Sequences

end Session

/-! ### All calls that marshal -/

/-- A device to write to. -/
structure Device where
  octets : List UInt8
  /-- The fault that it answers with if it is broken. -/
  fault : Option IoFault

/-- All streams and devices, by name. -/
structure Sinks where
  streams : String → EventStream
  devices : String → Device

/-- The sinks after a device has taken what was written to it, if anything was. -/
def Sinks.written (sinks : Sinks) (device : String) : Except Error (List UInt8) → Sinks
  | .ok octets =>
    { sinks with devices := fun name ↦
        if name = device then
          { sinks.devices name with octets := (sinks.devices name).octets ++ octets }
        else sinks.devices name }
  | .error _ => sinks

/-- The sinks with another stream in place of one. -/
def Sinks.withStream (sinks : Sinks) (stream : String) (s : EventStream) : Sinks :=
  { sinks with streams := fun name ↦ if name = stream then s else sinks.streams name }

/-- A call that marshals. -/
inductive MarshalCall where
  /-- A value of a declared type; the document is the answer. -/
  | declared (options : Options) (value : Value) (name : QName) (type : BindingName)
  /-- A value of a declared type, to a device. -/
  | declaredTo (options : Options) (value : Value) (name : QName) (type : BindingName)
    (device : String)
  /-- A value by its own type, to a stream. -/
  | detected (options : Options) (value : Value) (stream : String)
  /-- A value by its own type, to a device. -/
  | detectedTo (options : Options) (value : Value) (device : String)

/-- Make a call that marshals. -/
def MarshalCall.make (c : Context) (call : MarshalCall) (s : Session) (sinks : Sinks) :
    Except Error (Option EventStream) × Session × Sinks :=
  match call with
  | .declared options value name type =>
    let (outcome, s) := s.marshalType c options value name type
    (outcome.result.map some, s, sinks)
  | .declaredTo options value name type device =>
    let (outcome, s) := s.marshalTypeTo c options value name type (sinks.devices device).fault
    (outcome.result.map fun _ ↦ none, s, sinks.written device outcome.result)
  | .detected options value stream =>
    let (outcome, after, s) := s.marshal c options (sinks.streams stream) value
    (outcome.result.map fun _ ↦ none, s, sinks.withStream stream after)
  | .detectedTo options value device =>
    let (outcome, s) := s.marshalTo c options value (sinks.devices device).fault
    (outcome.result.map fun _ ↦ none, s, sinks.written device outcome.result)

/-- A call that unmarshals. -/
inductive UnmarshalCall where
  | detected (options : Options) (document : EventStream)
  | declared (options : Options) (type : BindingName) (document : EventStream)
  | ofText (options : Options) (text : String)
  /-- The octets of a device, which may answer with a fault instead. -/
  | ofOctets (options : Options) (source : Except IoFault (List UInt8))

/-- Make a call that unmarshals, with nothing around the session. -/
def UnmarshalCall.make (c : Context) (call : UnmarshalCall) (s : Session) (around : Unit) :
    Except Error Value × Session × Unit :=
  let (outcome, s) :=
    match call with
    | .detected options document => s.unmarshal c options document
    | .declared options type document => s.unmarshalType c options type document
    | .ofText options text => s.unmarshalText c options text
    | .ofOctets options source => s.unmarshalOctets c options source
  (outcome.result, s, around)

namespace Session

variable {s : Session}

/-- Putting a stream in its own place changes nothing. -/
theorem withStream_self (sinks : Sinks) (stream : String) :
    sinks.withStream stream (sinks.streams stream) = sinks := by
  unfold Sinks.withStream
  congr
  funext name
  split
  · next h => rw [h]
  · rfl

/-- A document of a fresh session goes to the end of the stream. -/
theorem marshal_of_ok {c : Context} {options : Options} {value : Value} {document : EventStream}
    (h : (c.marshal options value).result = .ok document) (hs : s.state = .idle)
    (stream : EventStream) :
    s.marshal c options stream value =
      (⟨.ok (), (c.marshal options value).raised⟩, stream.append document,
        ⟨.completed, (c.marshal options value).raised⟩) := by
  simp [marshal, run, start, hs, execute, finish, h, SessionState.ofResult]

/-- A failure leaves the stream as it is. -/
theorem marshal_of_error {c : Context} {options : Options} {value : Value} {error : Error}
    (h : (c.marshal options value).result = .error error) (hs : s.state = .idle)
    (stream : EventStream) :
    s.marshal c options stream value =
      (⟨.error error, (c.marshal options value).raised⟩, stream,
        ⟨.failed, (c.marshal options value).raised⟩) := by
  simp [marshal, run, start, hs, execute, finish, h, SessionState.ofResult]

private theorem marshal_of_used (hs : s.state ≠ .idle) (c : Context) (options : Options)
    (stream : EventStream) (value : Value) :
    s.marshal c options stream value = (.failure .sessionReused, stream, s) := by
  rw [marshal, run_of_used hs]
  rfl

/-- Calls that marshal keep to the rule of sessions. -/
theorem keepsRule_marshal (c : Context) : KeepsRule (MarshalCall.make c) where
  finishes call s sinks h := by
    cases call with
    | declared options value name type =>
      exact (state_run h _).trans (SessionState.ofResult_map some _).symm
    | declaredTo options value name type device =>
      exact (state_deliver (state_run h _)).trans (SessionState.ofResult_map _ _).symm
    | detected options value stream =>
      cases hr : (c.marshal options value).result with
      | ok document => simp only [MarshalCall.make, marshal_of_ok hr h]; rfl
      | error error => simp only [MarshalCall.make, marshal_of_error hr h]; rfl
    | detectedTo options value device =>
      exact (state_deliver (state_run h _)).trans (SessionState.ofResult_map _ _).symm
  refuses call s sinks h := by
    cases call with
    | declared options value name type =>
      simp only [MarshalCall.make, marshalType, run_of_used h]
      rfl
    | declaredTo options value name type device =>
      simp only [MarshalCall.make, marshalTypeTo, marshalType, run_of_used h]
      rw [deliver_of_error rfl]
      rfl
    | detected options value stream =>
      simp only [MarshalCall.make, marshal_of_used h, withStream_self]
      rfl
    | detectedTo options value device =>
      simp only [MarshalCall.make, marshalTo, run_of_used h]
      rw [deliver_of_error rfl]
      rfl

/-- Calls that unmarshal keep to the rule of sessions. -/
theorem keepsRule_unmarshal (c : Context) : KeepsRule (UnmarshalCall.make c) where
  finishes call s around h := by
    cases call with
    | detected options document => exact state_run h _
    | declared options type document => exact state_run h _
    | ofText options text => exact state_unmarshalRead h c options _
    | ofOctets options source => exact state_unmarshalRead h c options _
  refuses call s around h := by
    cases call with
    | detected options document => simp only [UnmarshalCall.make, unmarshal, run_of_used h]; rfl
    | declared options type document =>
      simp only [UnmarshalCall.make, unmarshalType, run_of_used h]
      rfl
    | ofText options text =>
      simp only [UnmarshalCall.make, unmarshalText, unmarshalRead_of_used h]
      rfl
    | ofOctets options source =>
      simp only [UnmarshalCall.make, unmarshalOctets, unmarshalRead_of_used h]
      rfl

/-- A session makes one call, which finishes it by its result; every later call is refused and
leaves the session, the streams and the devices as they are. A document by the value's own type is
put behind what a stream has, and nothing is put there if the call fails. -/
theorem make_one_call (c : Context) :
    MakesOneCall (MarshalCall.make c) ∧ MakesOneCall (UnmarshalCall.make c) ∧
    ∀ options value stream sinks,
      let made := MarshalCall.make c (.detected options value stream) .fresh sinks
      (∀ document, (c.marshal options value).result = .ok document →
        made.1 = .ok none ∧ made.2.2.devices = sinks.devices ∧
        (made.2.2.streams stream).entries =
          (sinks.streams stream).entries ++ document.entries ∧
        ∀ other, other ≠ stream → made.2.2.streams other = sinks.streams other) ∧
      ∀ error, (c.marshal options value).result = .error error →
        made.1 = .error error ∧ made.2.2 = sinks := by
  refine ⟨(keepsRule_marshal c).makesOneCall, (keepsRule_unmarshal c).makesOneCall, ?_⟩
  intro options value stream sinks made
  dsimp only [made, MarshalCall.make]
  refine ⟨fun document hr ↦ ?_, fun error hr ↦ ?_⟩
  · rw [marshal_of_ok hr rfl]
    refine ⟨rfl, rfl, ?_, fun other hother ↦ ?_⟩
    · simp [Sinks.withStream, EventStream.append]
    · simp [Sinks.withStream, hother]
  · rw [marshal_of_error hr rfl]
    exact ⟨rfl, withStream_self sinks stream⟩

end Session

namespace Shapes

/-- A stream with a text in it, and a device that is full. -/
def sinks : Sinks := ⟨fun _ ↦ .ofEvents [.text "before"], fun _ ↦ ⟨[], some (.device "full")⟩⟩

/-- A shape for the device. -/
def ofDevice : MarshalCall :=
  .declaredTo ⟨none, none⟩ value ⟨"urn:shapes", "shape"⟩ shape "device"

/-- A shape for the stream. -/
def ofStream : MarshalCall := .detected ⟨none, none⟩ value "stream"

end Shapes

/-- A shape is made but not written, since the device is full, and no other call is made any more. A
session of its own puts the shape behind the text in the stream. -/
theorem Session.make_one_call_shapes :
    runAll (MarshalCall.make Shapes.context) [Shapes.ofDevice, Shapes.ofStream, Shapes.ofDevice]
        .fresh Shapes.sinks =
      ([.error (.io (.device "full")), .error .sessionReused, .error .sessionReused],
        ⟨.failed, []⟩, Shapes.sinks) ∧
    ((Shapes.ofStream.make Shapes.context .fresh Shapes.sinks).2.2.streams "stream").entries =
      (Shapes.sinks.streams "stream").entries ++
        (EventStream.ofEvents Shapes.tree.events).entries := by
  obtain ⟨hcalls, -, hstream⟩ := make_one_call Shapes.context
  have hwritten : (Session.fresh.marshalTypeTo Shapes.context ⟨none, none⟩ Shapes.value
      ⟨"urn:shapes", "shape"⟩ Shapes.shape (some (.device "full"))).1.result =
        .error (.io (.device "full")) := by decide +kernel
  have hsession : (Session.fresh.marshalTypeTo Shapes.context ⟨none, none⟩ Shapes.value
      ⟨"urn:shapes", "shape"⟩ Shapes.shape (some (.device "full"))).2 = ⟨.failed, []⟩ := by
    decide +kernel
  have hfirst : Shapes.ofDevice.make Shapes.context .fresh Shapes.sinks =
      (.error (.io (.device "full")), ⟨.failed, []⟩, Shapes.sinks) := by
    unfold Shapes.ofDevice MarshalCall.make
    dsimp only [Shapes.sinks]
    rw [hwritten, hsession]
    rfl
  have hresult : (Shapes.context.marshal ⟨none, none⟩ Shapes.value).result =
      .ok (.ofEvents Shapes.tree.events) := by decide +kernel
  refine ⟨hcalls.runAll_eq hfirst [Shapes.ofStream, Shapes.ofDevice], ?_⟩
  unfold Shapes.ofStream
  exact ((hstream ⟨none, none⟩ Shapes.value "stream" Shapes.sinks).1 _ hresult).2.2.1

end XmlBinding
