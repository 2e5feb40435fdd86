import RecordPrivacy.Codec
import RecordPrivacy.Layout.Loose

/-!
The JSON codec of a record type, by its layout.
-/
namespace RecordPrivacy.Codec

def json {n : Nat} (layouts : Layouts n) (type : Fin n) : Codec where
  contentType := "application/json"
  encode record :=
    match layouts.toJson type record with
    | .ok value => .ok (Utf8.encode value.write)
    | .error reason => .error (.json reason)
  decode data _ := (layouts.read type data).mapError .json

end RecordPrivacy.Codec
