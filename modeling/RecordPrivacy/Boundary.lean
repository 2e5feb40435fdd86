/-!
Boundaries that records cross, and the actions carried out there. Every action belongs to exactly
one boundary; a boundary carries out its actions in a fixed order, so that on the way out a
redaction follows the mask and has the last word.
-/
namespace RecordPrivacy

inductive Boundary where
  | receive
  | load
  | store
  | send
  deriving DecidableEq, Repr

inductive Action where
  | hash
  | decrypt
  | encrypt
  | mask
  | redact
  deriving DecidableEq, Repr

namespace Boundary

def all : List Boundary := [.receive, .load, .store, .send]

/-- The boundary's actions, in the order in which they are carried out. -/
def actions : Boundary → List Action
  | .receive => [.hash]
  | .load => [.decrypt]
  | .store => [.encrypt]
  | .send => [.mask, .redact]

def text : Boundary → String
  | .receive => "receive"
  | .load => "load"
  | .store => "store"
  | .send => "send"

def ofText? (text : String) : Option Boundary :=
  all.find? (·.text == text)

/-- The capitalised name, as diagnostics show it. -/
def label : Boundary → String
  | .receive => "Receive"
  | .load => "Load"
  | .store => "Store"
  | .send => "Send"

end Boundary

namespace Action

def all : List Action := [.hash, .decrypt, .encrypt, .mask, .redact]

def boundary : Action → Boundary
  | .hash => .receive
  | .decrypt => .load
  | .encrypt => .store
  | .mask => .send
  | .redact => .send

def text : Action → String
  | .hash => "hash"
  | .decrypt => "decrypt"
  | .encrypt => "encrypt"
  | .mask => "mask"
  | .redact => "redact"

def ofText? (text : String) : Option Action :=
  all.find? (·.text == text)

/-- The capitalised name, as diagnostics show it. -/
def label : Action → String
  | .hash => "Hash"
  | .decrypt => "Decrypt"
  | .encrypt => "Encrypt"
  | .mask => "Mask"
  | .redact => "Redact"

/-- A boundary's actions are those that belong to it. -/
theorem mem_actions_boundary (action : Action) (boundary : Boundary) :
    action ∈ boundary.actions ↔ action.boundary = boundary := by
  cases action <;> cases boundary <;> decide

end Action

end RecordPrivacy
