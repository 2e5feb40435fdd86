import RecordPrivacy.Record

/-!
Codecs turn records into bytes and back. A processor calls its codec after outbound transforms and
before inbound ones. Decoding starts from the empty record of the type.
-/
namespace RecordPrivacy

/-- Why a codec failed; a fault of the JSON text itself is told apart from a codec's own. -/
inductive CodecFault where
  | json (reason : String)
  | other (reason : String)
  deriving DecidableEq, Repr

def CodecFault.message : CodecFault → String
  | .json reason => reason
  | .other reason => reason

structure Codec where
  contentType : String
  encode : Record → Except CodecFault Bytes
  decode : Bytes → Record → Except CodecFault Record

/-- A call of a codec, with what it is called on. -/
inductive CodecCall where
  | encode (record : Record)
  | decode (data : Bytes) (into : Record)

inductive CodecError where
  | notConfigured
  | encode (fault : CodecFault)
  | decode (fault : CodecFault)
  deriving DecidableEq, Repr

def CodecError.message : CodecError → String
  | .notConfigured => "no codec configured"
  | .encode fault => s!"encode failed: {fault.message}"
  | .decode fault => s!"decode failed: {fault.message}"

end RecordPrivacy
