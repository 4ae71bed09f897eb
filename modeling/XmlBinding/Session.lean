import XmlBinding.Context.Marshal
import XmlBinding.Context.Unmarshal
import XmlBinding.Document.Octets

/-!
# Sessions

A session makes one call and keeps the diagnostics of that call. Every call starts the session,
which refuses all but the first one, and finishes it with its result. A call that writes to a device
makes the document first, which finishes the session, and finishes it once more when it has written.
-/

namespace XmlBinding

/-- How far a session is. -/
inductive SessionState where
  | idle
  | completed
  | failed
  deriving DecidableEq, Repr

/-- The state of a session whose call came to a result. -/
def SessionState.ofResult {α : Type} : Except Error α → SessionState
  | .ok _ => .completed
  | .error _ => .failed

/-- What a call may be told. -/
structure Options where
  /-- Whether a type without a binding ends the call, if it is not as the context says. -/
  strict : Option Bool
  encoding : Option CharacterEncoding
  deriving DecidableEq, Repr

/-- What comes of a call: its result, and the diagnostics raised on the way. -/
structure Outcome (α : Type) where
  result : Except Error α
  raised : List Diagnostic

namespace Outcome

variable {α β : Type}

/-- Go on with the result, which may still fail. -/
def andThen (o : Outcome α) (f : α → Except Error β) : Outcome β := ⟨o.result >>= f, o.raised⟩

/-- A failure before anything was raised. -/
def failure (error : Error) : Outcome α := ⟨.error error, []⟩

/-- What comes of writing. -/
def ofWriting (w : Writing α) : Outcome α :=
  let (result, log) := w.run.run ⟨0, []⟩
  ⟨result, log.diagnostics⟩

/-- What comes of reading a document. -/
def ofScanning (s : Scanning α) (document : EventStream) : Outcome α :=
  let (result, cursor) := s.run.run ⟨document.entries, []⟩
  ⟨result, cursor.diagnostics⟩

end Outcome

namespace Context

/-- A type without a binding ends the call. -/
def isStrict (c : Context) (options : Options) : Bool := options.strict.getD c.strict

/-- Marshal a value of a declared type as an element. -/
def marshalType (c : Context) (options : Options) (value : Value) (name : QName)
    (declared : BindingName) : Outcome EventStream :=
  .ofWriting (c.marshalDeclared (c.isStrict options) name value declared)

/-- Marshal a value by its own type. -/
def marshal (c : Context) (options : Options) (value : Value) : Outcome EventStream :=
  .ofWriting (c.marshalDetected (c.isStrict options) value)

/-- Write a marshalled document to a device, which may answer with a fault. -/
def send (options : Options) (fault : Option IoFault) (o : Outcome EventStream) :
    Outcome (List UInt8) :=
  o.andThen (·.send (options.encoding.getD .utf8) fault)

/-- Unmarshal a document by its root element. -/
def unmarshal (c : Context) (options : Options) (document : EventStream) : Outcome Value :=
  .ofScanning (c.unmarshalDetected (c.isStrict options)) document

/-- Unmarshal a document of a declared type. -/
def unmarshalType (c : Context) (options : Options) (declared : BindingName)
    (document : EventStream) : Outcome Value :=
  .ofScanning (c.unmarshalDeclared (c.isStrict options) declared) document

end Context

/-- A session: how far it is, and the diagnostics of its call. -/
structure Session where
  state : SessionState
  diagnostics : List Diagnostic
  deriving DecidableEq, Repr

namespace Session

variable {α : Type}

/-- A session whose call is still to be made. -/
def fresh : Session := ⟨.idle, []⟩

/-- Start the call of the session, unless one was made before. -/
def start (s : Session) : Except Error Unit :=
  match s.state with
  | .idle => .ok ()
  | _ => .error .sessionReused

/-- The session after its call came to a result. -/
def finish (s : Session) (result : Except Error α) : Session := { s with state := .ofResult result }

/-- Make the call that was started: the session keeps the diagnostics and is finished. -/
def execute (s : Session) (call : Outcome α) : Outcome α × Session :=
  (call, { s with diagnostics := call.raised }.finish call.result)

/-- Make a call, unless one was made before. -/
def run (s : Session) (call : Outcome α) : Outcome α × Session :=
  match s.start with
  | .ok () => s.execute call
  | .error error => (.failure error, s)

/-- Write the document that a call has made, if it has made one, to a device. The session was
finished with the document, and is finished once more with what comes of writing it. -/
def deliver (options : Options) (fault : Option IoFault) (called : Outcome EventStream × Session) :
    Outcome (List UInt8) × Session :=
  let (made, s) := called
  let sent := Context.send options fault made
  match made.result with
  | .ok _ => (sent, s.finish sent.result)
  | .error _ => (sent, s)

/-- Marshal a value of a declared type as an element. -/
def marshalType (s : Session) (c : Context) (options : Options) (value : Value) (name : QName)
    (declared : BindingName) : Outcome EventStream × Session :=
  s.run (c.marshalType options value name declared)

/-- Marshal a value of a declared type and write it to a device. -/
def marshalTypeTo (s : Session) (c : Context) (options : Options) (value : Value) (name : QName)
    (declared : BindingName) (fault : Option IoFault) : Outcome (List UInt8) × Session :=
  deliver options fault (s.marshalType c options value name declared)

/-- Marshal a value by its own type, and append the document to a stream if that succeeds. -/
def marshal (s : Session) (c : Context) (options : Options) (stream : EventStream) (value : Value) :
    Outcome Unit × EventStream × Session :=
  let (outcome, s) := s.run (c.marshal options value)
  match outcome.result with
  | .ok document => (⟨.ok (), outcome.raised⟩, stream.append document, s)
  | .error error => (⟨.error error, outcome.raised⟩, stream, s)

/-- Marshal a value by its own type and write it to a device. -/
def marshalTo (s : Session) (c : Context) (options : Options) (value : Value)
    (fault : Option IoFault) : Outcome (List UInt8) × Session :=
  deliver options fault (s.run (c.marshal options value))

/-- Unmarshal a document by its root element. -/
def unmarshal (s : Session) (c : Context) (options : Options) (document : EventStream) :
    Outcome Value × Session :=
  s.run (c.unmarshal options document)

/-- Unmarshal a document of a declared type. -/
def unmarshalType (s : Session) (c : Context) (options : Options) (declared : BindingName)
    (document : EventStream) : Outcome Value × Session :=
  s.run (c.unmarshalType options declared document)

/-- Unmarshal a document that is read once the call has started. If it cannot be read, the session
is finished with that alone. -/
def unmarshalRead (s : Session) (c : Context) (options : Options)
    (document : Except Error EventStream) : Outcome Value × Session :=
  match s.start with
  | .error error => (.failure error, s)
  | .ok () =>
    match document with
    | .ok document => s.execute (c.unmarshal options document)
    | .error error => (.failure error, s.finish (.error error : Except Error Value))

/-- Unmarshal a document text. -/
def unmarshalText (s : Session) (c : Context) (options : Options) (text : String) :
    Outcome Value × Session :=
  s.unmarshalRead c options (EventStream.parse text)

/-- Unmarshal the octets of a device, which may answer with a fault instead. -/
def unmarshalOctets (s : Session) (c : Context) (options : Options)
    (source : Except IoFault (List UInt8)) : Outcome Value × Session :=
  s.unmarshalRead c options do
    let octets ← source.mapError Error.io
    EventStream.ofOctets octets options.encoding

/-- A session that has made its call does not start another one. -/
theorem start_of_used {s : Session} (h : s.state ≠ .idle) : s.start = .error .sessionReused := by
  unfold start
  split
  · next hidle => exact absurd hidle h
  · rfl

/-- A call on a session that has made its own is refused and changes nothing. -/
theorem run_of_used {s : Session} (h : s.state ≠ .idle) (call : Outcome α) :
    s.run call = (.failure .sessionReused, s) := by
  rw [run, start_of_used h]

end Session

end XmlBinding
