import RecordPrivacy.Plan

/-!
Three small types: a token, a token that does not compile, and the holder of a token.
-/
namespace RecordPrivacy.Sample

def tokenFamily : Family 3
  | 0 => ⟨"Token", [⟨0, "value", .leaf .text [⟨.hash, "sha256"⟩]⟩]⟩
  | 1 => ⟨"Broken", [⟨0, "value", .leaf .text [⟨.hash, "md5"⟩]⟩]⟩
  | 2 => ⟨"Holder", [⟨0, "token", .nested false 0⟩]⟩

def tokenPlanSet : PlanSet where
  typeName := "Token"
  entries := [(.hash, ⟨[0], [], "value", .hasher .sha256, .text⟩)]

def holderPlanSet : PlanSet where
  typeName := "Holder"
  entries := [(.hash, ⟨[0, 0], [], "token.value", .hasher .sha256, .text⟩)]

end RecordPrivacy.Sample
