import RecordPrivacy.Codec
import RecordPrivacy.Plan.Cache
import RecordPrivacy.Traversal

/-!
Processors carry records of one type across boundaries. A processor has the compiled plans of its
type, a registry of capabilities that may be added to at any time, perhaps a codec, and the outcome
of validation once it has been asked for, which never changes again. Whatever a processor does it
does in a `Session`: it may draw on the supply of randomness, and it reports events in order, none
of which carries the content of a field. The calls of its codec are kept along with the events.
-/
namespace RecordPrivacy

/-- A record type as a processor knows it: its place in a family of schemas, the actions for which
it has an implementation of its own, its empty record and its JSON. An override may change the
record, and may decline, in which case the action's plans are carried out after all. -/
structure RecordType where
  size : Nat
  family : Family size
  root : Fin size
  overrides : List Action
  runOverride : Action → Capabilities → Record →
    Drawn (Record × Option (Except CapabilityError Unit))
  empty : Record
  toJson : Record → Except String Json

inductive ProcessingError where
  | validation (error : ValidationError)
  | codec (error : CodecError)
  | transform (error : TransformError)
  deriving DecidableEq, Repr

def ProcessingError.message : ProcessingError → String
  | .validation error => error.message
  | .codec error => error.message
  | .transform error => error.message

/-- What a processor reports. -/
inductive Event where
  | compilationFailed (error : CompileError)
  | created (plans : PlanSet) (overrides : Nat)
  | codecAttached (contentType : String)
  | registered (kind : CapabilityKind) (parameter : String)
  | validationFailed (error : ValidationError)
  | started (boundary : Boundary)
  | overridden (action : Action)
  | completed (boundary : Boundary) (fields : Nat)
  | failed (boundary : Boundary) (error : ProcessingError)
  | decodeFailed (size : Nat) (fault : CodecFault)
  | encoded (boundary : Boundary) (size : Nat)
  | encodeFailed (boundary : Boundary) (fault : CodecFault)
  | notSerializable (reason : String)

structure Processor where
  type : RecordType
  shared : SharedPlans
  capabilities : Capabilities
  codec : Option Codec
  validation : Option (Except ValidationError Unit)

namespace Processor

def plans (p : Processor) : PlanSet :=
  p.shared.plans

def typeName (p : Processor) : String :=
  p.plans.typeName

/-- A new processor with the plans of its type, from the cache if they are kept there. -/
def create (type : RecordType) (cache : PlanCache) :
    Except CompileError Processor × PlanCache :=
  let (result, cache) := cache.plansFor type.family type.root
  (result.map fun shared => ⟨type, shared, .builtin, none, none⟩, cache)

/-- What is reported of an attempt to create a processor. -/
def creation (type : RecordType) : Except CompileError Processor → Event
  | .ok p => .created p.plans type.overrides.length
  | .error e => .compilationFailed e

def showOption (value : Option String) : String :=
  match value with
  | none => "None"
  | some text => s!"Some({text})"

/-- The processor for diagnostics. -/
def describe (p : Processor) : String :=
  let validated := p.validation.map fun outcome =>
    match outcome with
    | .ok _ => "true"
    | .error _ => "false"
  let contentType := p.codec.map fun codec => Text.quoted codec.contentType
  "Processor \x7b type: " ++ Text.quoted p.typeName ++ s!", plans: {p.plans.size}" ++
    ", capabilities: " ++ p.capabilities.describe ++ ", validated: " ++ showOption validated ++
    ", content_type: " ++ showOption contentType ++ " \x7d"

end Processor

/-! ### Sessions -/

/-- What can be seen of a processor at work: what it reports, and the calls of its codec. -/
inductive Occurrence where
  | reported (event : Event)
  | called (call : CodecCall)

namespace Occurrence

def event? : Occurrence → Option Event
  | .reported event => some event
  | .called _ => none

def call? : Occurrence → Option CodecCall
  | .reported _ => none
  | .called call => some call

end Occurrence

/-- A processor at work: the randomness left to it, and what could be seen of it so far. -/
structure Work where
  processor : Processor
  entropy : Entropy
  history : List Occurrence

namespace Work

/-- The events reported so far. -/
def events (w : Work) : List Event :=
  w.history.filterMap Occurrence.event?

/-- The calls of codecs so far. -/
def calls (w : Work) : List CodecCall :=
  w.history.filterMap Occurrence.call?

end Work

abbrev Session := StateM Work

namespace Session

def keep (occurrence : Occurrence) : Session Unit :=
  modify fun w => { w with history := w.history ++ [occurrence] }

def report (event : Event) : Session Unit :=
  keep (.reported event)

def draw {α : Type} (drawn : Drawn α) : Session α := fun w =>
  let (a, entropy) := drawn w.entropy
  (a, { w with entropy := entropy })

def processor : Session Processor :=
  return (← get).processor

def updateCapabilities (change : Capabilities → Capabilities) : Session Unit :=
  modify fun w => { w with processor.capabilities := change w.processor.capabilities }

/-! ### Setting up -/

def setEncryptor (algorithm : EncryptionAlgorithm) (encryptor : Encryptor) : Session Unit := do
  updateCapabilities (·.insertEncryptor algorithm encryptor)
  report (.registered .encryptor algorithm.text)

def setHasher (algorithm : HashAlgorithm) (hasher : Hasher) : Session Unit := do
  updateCapabilities (·.insertHasher algorithm hasher)
  report (.registered .hasher algorithm.text)

def setMasker (format : MaskFormat) (masker : Masker) : Session Unit := do
  updateCapabilities (·.insertMasker format masker)
  report (.registered .masker format.text)

/-- Registers the built-in encryptor for the key, if the key is one. -/
def setKey (algorithm : EncryptionAlgorithm) (key : Bytes) :
    Session (Except CapabilityError Unit) := do
  match Encryptor.ofKey algorithm key with
  | .error e => return .error e
  | .ok encryptor =>
    setEncryptor algorithm encryptor
    return .ok ()

def setCodec (codec : Codec) : Session Unit := do
  report (.codecAttached codec.contentType)
  modify fun w => { w with processor.codec := some codec }

/-! ### Validation -/

/-- Whether every plan has its capability; decided when first asked, and kept. -/
def validate : Session (Except ValidationError Unit) := do
  let p ← processor
  match p.validation with
  | some outcome => return outcome
  | none =>
    let outcome := p.capabilities.validate p.plans p.type.overrides
    match outcome with
    | .error e => report (.validationFailed e)
    | .ok () => pure ()
    modify fun w => { w with processor.validation := some outcome }
    return outcome

/-! ### Crossing a boundary -/

/-- What an override that ran amounts to: no fields, or a failure named for the whole type. -/
def overrideResult (typeName : String) (action : Action) :
    Except CapabilityError Unit → Except TransformError Nat
  | .ok () => .ok 0
  | .error e => .error ⟨.ofAction action, action, typeName, .capability e⟩

/-- Carries out an action on the record, by the type's override or else by the plans. -/
def perform (action : Action) (record : Record) : Session Traversed := do
  let p ← processor
  if action ∈ p.type.overrides then
    let (record, ran) ← draw (p.type.runOverride action p.capabilities record)
    match ran with
    | some result =>
      report (.overridden action)
      return (record, overrideResult p.typeName action result)
    | none => draw (traverse p.capabilities action (p.plans.forAction action) record)
  else draw (traverse p.capabilities action (p.plans.forAction action) record)

/-- The actions in order, up to the first failure; counts the leaves transformed. -/
def performAll : List Action → Record → Session Traversed
  | [], record => return (record, .ok 0)
  | action :: rest, record => do
    match ← perform action record with
    | (record, .error e) => return (record, .error e)
    | (record, .ok count) =>
      let (record, result) ← performAll rest record
      return (record, result.map (count + ·))

/-- Takes a record across the boundary. -/
def cross (boundary : Boundary) (record : Record) : Session (Except ProcessingError Record) := do
  report (.started boundary)
  match ← validate with
  | .error e =>
    report (.failed boundary (.validation e))
    return .error (.validation e)
  | .ok () =>
    match ← performAll boundary.actions record with
    | (_, .error e) =>
      report (.failed boundary (.transform e))
      return .error (.transform e)
    | (record, .ok fields) =>
      report (.completed boundary fields)
      return .ok record

def receive : Record → Session (Except ProcessingError Record) := cross .receive

def load : Record → Session (Except ProcessingError Record) := cross .load

def store : Record → Session (Except ProcessingError Record) := cross .store

def send : Record → Session (Except ProcessingError Record) := cross .send

/-! ### With the codec -/

/-- Calls the codec to encode. A codec is called by this and by `callDecode`, and in no other
way. -/
def callEncode (codec : Codec) (record : Record) : Session (Except CodecFault Bytes) := do
  keep (.called (.encode record))
  return codec.encode record

def callDecode (codec : Codec) (data : Bytes) (into : Record) :
    Session (Except CodecFault Record) := do
  keep (.called (.decode data into))
  return codec.decode data into

/-- The record that the bytes encode. -/
def unmarshal (data : Bytes) : Session (Except ProcessingError Record) := do
  let p ← processor
  match p.codec with
  | none => return .error (.codec .notConfigured)
  | some codec =>
    match ← callDecode codec data p.type.empty with
    | .ok record => return .ok record
    | .error fault =>
      report (.decodeFailed data.length fault)
      return .error (.codec (.decode fault))

/-- The bytes of a record that has crossed the boundary. -/
def marshal (boundary : Boundary) (record : Record) : Session (Except ProcessingError Bytes) := do
  let p ← processor
  match p.codec with
  | none => return .error (.codec .notConfigured)
  | some codec =>
    match ← callEncode codec record with
    | .ok data =>
      report (.encoded boundary data.length)
      return .ok data
    | .error fault =>
      report (.encodeFailed boundary fault)
      return .error (.codec (.encode fault))

/-- Decodes, then crosses inwards. -/
def inbound (boundary : Boundary) (data : Bytes) : Session (Except ProcessingError Record) := do
  match ← unmarshal data with
  | .error e => return .error e
  | .ok record => cross boundary record

/-- Crosses outwards, then encodes. -/
def outbound (boundary : Boundary) (record : Record) : Session (Except ProcessingError Bytes) := do
  match ← cross boundary record with
  | .error e => return .error e
  | .ok crossed => marshal boundary crossed

def decode : Bytes → Session (Except ProcessingError Record) := inbound .receive

def read : Bytes → Session (Except ProcessingError Record) := inbound .load

def write : Record → Session (Except ProcessingError Bytes) := outbound .store

def encode : Record → Session (Except ProcessingError Bytes) := outbound .send

/-- The record as it may be logged: its outbound form as JSON, or a placeholder. -/
def loggable (record : Record) : Session Json := do
  match ← send record with
  | .error _ => return .text "Failed to apply send boundary"
  | .ok sent =>
    let p ← processor
    match p.type.toJson sent with
    | .ok json => return json
    | .error reason =>
      report (.notSerializable reason)
      return .text "Failed to serialize outbound value"

end Session

end RecordPrivacy
