import RecordPrivacy.Processor

/-!
Events as log records: a level, a message, and named values. Durations are a value of their own,
since time is not modelled.
-/
namespace RecordPrivacy

inductive LogLevel where
  | debug
  | info
  | warning
  deriving DecidableEq, Repr

def LogLevel.text : LogLevel → String
  | .debug => "DEBUG"
  | .info => "INFO"
  | .warning => "WARNING"

inductive LogValue where
  | text (value : String)
  | duration
  | json (value : Json)

structure LogRecord where
  level : LogLevel
  message : String
  values : List (String × LogValue)

namespace Event

def count (n : Nat) : LogValue := .text (toString n)

/-- The record of an event; a processor's own logger adds the name of its type. -/
def record : Event → LogRecord
  | .compilationFailed error =>
    ⟨.warning, "plan compilation failed", [("error", .text error.message)]⟩
  | .created plans overrides =>
    ⟨.debug, "processor created",
      Action.all.map (fun action => (action.text, count (plans.forAction action).length)) ++
        [("overrides", count overrides)]⟩
  | .codecAttached contentType =>
    ⟨.debug, "codec attached", [("content_type", .text contentType)]⟩
  | .registered kind parameter =>
    ⟨.debug, "capability registered",
      [("kind", .text kind.text), ("parameter", .text parameter)]⟩
  | .validationFailed error =>
    ⟨.warning, "validation failed", [("error", .text error.message)]⟩
  | .started boundary => ⟨.debug, "boundary started", [("boundary", .text boundary.text)]⟩
  | .overridden action => ⟨.debug, "override applied", [("action", .text action.text)]⟩
  | .completed boundary fields =>
    ⟨.debug, "boundary completed",
      [("boundary", .text boundary.text), ("fields", count fields), ("duration_us", .duration)]⟩
  | .failed boundary error =>
    ⟨.warning, "boundary failed",
      [("boundary", .text boundary.text), ("duration_us", .duration),
        ("error", .text error.message)]⟩
  | .decodeFailed size fault =>
    ⟨.warning, "decode failed", [("bytes", count size), ("error", .text fault.message)]⟩
  | .encoded boundary size =>
    ⟨.debug, "encoded", [("boundary", .text boundary.text), ("bytes", count size)]⟩
  | .encodeFailed boundary fault =>
    ⟨.warning, "encode failed",
      [("boundary", .text boundary.text), ("error", .text fault.message)]⟩
  | .notSerializable reason =>
    ⟨.warning, "outbound value not serializable", [("error", .text reason)]⟩

/-- Whether the event comes from a processor's own logger; a type that does not compile has none. -/
def hasType : Event → Bool
  | .compilationFailed _ => false
  | _ => true

/-- The record with the values of the logger that the event comes from. -/
def recordFor (typeName : String) (event : Event) : LogRecord :=
  let r := event.record
  if event.hasType then { r with values := ("type", .text typeName) :: r.values } else r

end Event

end RecordPrivacy
