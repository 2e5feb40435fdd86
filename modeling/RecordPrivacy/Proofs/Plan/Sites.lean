import RecordPrivacy.Plan
import RecordPrivacy.Proofs.Lists

/-! Where plans come from.

A way is a chain of nested fields that starts at a record type. Along the ways lie the sites that
compilation has to do with: the directives on the leaves and the nested fields themselves. A site
has an address, the places of the fields that lead to it, and addresses in lexicographic order are
sites in declaration order and depth first. A site is refused if it is a directive whose parameter
its action does not accept (`Denotes`), or a nested field whose type is already on the way; else a
directive is planned (`PlannedAs`), and a nested field adds nothing of its own. -/
namespace RecordPrivacy
variable {n : Nat}

/-! ### Ways -/

/-- A nested field on a way, with its place among the fields of its type. -/
structure Step (n : Nat) where
  place : Nat
  field : FieldSchema n
  optional : Bool
  record : Fin n

/-- The step leads through one of the fields. -/
structure Step.Of (fields : List (FieldSchema n)) (step : Step n) : Prop where
  declared : fields[step.place]? = some step.field
  nested : step.field.kind = .nested step.optional step.record

/-- A chain of nested fields from one type to another. -/
inductive Way (family : Family n) : Fin n → List (Step n) → Fin n → Prop
  | nil {type : Fin n} : Way family type [] type
  | cons {type last : Fin n} {step : Step n} {way : List (Step n)} :
      step.Of (family type).fields → Way family step.record way last →
      Way family type (step :: way) last

/-- The types on a way, its first included. -/
def chain (root : Fin n) (way : List (Step n)) : List (Fin n) :=
  root :: way.map Step.record

/-- The places on a way whose record may be absent. -/
def optionalPlaces (way : List (Step n)) : List Nat :=
  (List.range way.length).filter fun i => way[i]?.any Step.optional

/-! ### Sites -/

inductive Site (n : Nat) where
  | directive (way : List (Step n)) (place : Nat) (field : FieldSchema n) (shape : Shape)
      (rank : Nat) (directive : Directive)
  | nested (way : List (Step n)) (step : Step n)

namespace Site

def way : Site n → List (Step n)
  | .directive way _ _ _ _ _ => way
  | .nested way _ => way

def field : Site n → FieldSchema n
  | .directive _ _ field _ _ _ => field
  | .nested _ step => step.field

/-- The places on the way, the place of the field, and for a directive its rank on the leaf. -/
def address : Site n → List Nat
  | .directive way place _ _ rank _ => way.map Step.place ++ [place, rank]
  | .nested way step => way.map Step.place ++ [step.place]

/-- The names on the way and that of the field, set apart by dots. -/
def name (site : Site n) : String :=
  String.intercalate "." (site.way.map (·.field.name) ++ [site.field.name])

/-- In declaration order and depth first. -/
def Before (a b : Site n) : Prop :=
  List.Lex (· < ·) a.address b.address

def action? : Site n → Option Action
  | .directive _ _ _ _ _ given => some given.action
  | .nested _ _ => none

/-- The site is at one of the fields. -/
inductive At (fields : List (FieldSchema n)) : Site n → Prop
  | directive {way : List (Step n)} {place rank : Nat} {field : FieldSchema n} {shape : Shape}
      {directives : List Directive} {directive : Directive} : fields[place]? = some field →
      field.kind = .leaf shape directives → directives[rank]? = some directive →
      At fields (.directive way place field shape rank directive)
  | nested {way : List (Step n)} {step : Step n} : step.Of fields → At fields (.nested way step)

/-- The site lies on a way from the root. -/
def Of (family : Family n) (root : Fin n) (site : Site n) : Prop :=
  ∃ last, Way family root site.way last ∧ site.At (family last).fields

end Site

/-! ### What becomes of a site -/

/-- The parameters that actions accept, each as it is written. -/
inductive Denotes : Directive → Parameter → Prop
  | encryptor {action : Action} (algorithm : EncryptionAlgorithm) :
      action = .encrypt ∨ action = .decrypt →
      Denotes ⟨action, algorithm.text⟩ (.encryptor algorithm)
  | hasher (algorithm : HashAlgorithm) : Denotes ⟨.hash, algorithm.text⟩ (.hasher algorithm)
  | masker (format : MaskFormat) : Denotes ⟨.mask, format.text⟩ (.masker format)
  | literal (text : String) : Denotes ⟨.redact, text⟩ (.literal text)

/-- A site that compilation refuses, with the error. -/
inductive Refused (family : Family n) (root : Fin n) : Site n → CompileError → Prop
  | parameter {site : Site n} {way : List (Step n)} {place rank : Nat} {field : FieldSchema n}
      {shape : Shape} {directive : Directive} :
      site = .directive way place field shape rank directive → (∀ p, ¬ Denotes directive p) →
      Refused family root site
        (.invalidParameter site.name directive.action directive.parameter)
  | recursion {site : Site n} {way : List (Step n)} {step : Step n} :
      site = .nested way step → step.record ∈ chain root way →
      Refused family root site (.recursiveType site.name (family step.record).name)

/-- The plan of a directive, with its action. -/
inductive PlannedAs : Site n → Action × FieldPlan → Prop
  | directive {site : Site n} {way : List (Step n)} {place rank : Nat} {field : FieldSchema n}
      {shape : Shape} {directive : Directive} {parameter : Parameter} :
      site = .directive way place field shape rank directive → Denotes directive parameter →
      PlannedAs site (directive.action,
        { path := way.map (·.field.index) ++ [field.index]
          optionalSteps := optionalPlaces way
          name := site.name
          parameter := parameter
          shape := shape })

namespace Refused
variable {family : Family n} {root : Fin n} {way : List (Step n)} {e : CompileError}

theorem not_of_denotes {place rank : Nat} {field : FieldSchema n} {shape : Shape}
    {directive : Directive} {p : Parameter} (h : Denotes directive p) :
    ¬ Refused family root (.directive way place field shape rank directive) e := by
  intro hrefused
  cases hrefused with
  | parameter hsite hno =>
    cases hsite
    exact hno p h
  | recursion hsite => cases hsite

theorem not_of_not_mem {step : Step n} (h : step.record ∉ chain root way) :
    ¬ Refused family root (.nested way step) e := by
  intro hrefused
  cases hrefused with
  | parameter hsite => cases hsite
  | recursion hsite hmem =>
    cases hsite
    exact h hmem

end Refused

/-! ### Parameters -/

theorem EncryptionAlgorithm.ofText?_eq_some {text : String} {a : EncryptionAlgorithm} :
    ofText? text = some a ↔ a.text = text :=
  find?_named fun a => by cases a <;> decide

theorem HashAlgorithm.ofText?_eq_some {text : String} {a : HashAlgorithm} :
    ofText? text = some a ↔ a.text = text :=
  find?_named fun a => by cases a <;> decide

theorem MaskFormat.ofText?_eq_some {text : String} {f : MaskFormat} :
    ofText? text = some f ↔ f.text = text :=
  find?_named fun f => by cases f <;> decide

theorem Parameter.resolve?_eq_some {directive : Directive} {parameter : Parameter} :
    resolve? directive.action directive.parameter = some parameter ↔
      Denotes directive parameter := by
  obtain ⟨action, text⟩ := directive
  constructor
  · intro h
    cases action <;> simp only [resolve?, Option.map_eq_some_iff] at h
    case hash =>
      obtain ⟨a, ha, rfl⟩ := h
      cases HashAlgorithm.ofText?_eq_some.mp ha
      exact .hasher a
    case decrypt =>
      obtain ⟨a, ha, rfl⟩ := h
      cases EncryptionAlgorithm.ofText?_eq_some.mp ha
      exact .encryptor a (.inr rfl)
    case encrypt =>
      obtain ⟨a, ha, rfl⟩ := h
      cases EncryptionAlgorithm.ofText?_eq_some.mp ha
      exact .encryptor a (.inl rfl)
    case mask =>
      obtain ⟨f, hf, rfl⟩ := h
      cases MaskFormat.ofText?_eq_some.mp hf
      exact .masker f
    case redact =>
      cases h
      exact .literal text
  · intro h
    cases h with
    | encryptor a ha =>
      rcases ha with rfl | rfl <;>
        simp only [resolve?, EncryptionAlgorithm.ofText?_eq_some.mpr rfl, Option.map_some]
    | hasher a => simp only [resolve?, HashAlgorithm.ofText?_eq_some.mpr rfl, Option.map_some]
    | masker f => simp only [resolve?, MaskFormat.ofText?_eq_some.mpr rfl, Option.map_some]
    | literal => rfl

end RecordPrivacy
