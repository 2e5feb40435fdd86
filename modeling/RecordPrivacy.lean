import RecordPrivacy.Boundary
import RecordPrivacy.Bytes
import RecordPrivacy.Capability.Encryptor
import RecordPrivacy.Capability.Error
import RecordPrivacy.Capability.Hasher
import RecordPrivacy.Capability.Identifier
import RecordPrivacy.Capability.Masker
import RecordPrivacy.Capability.Password
import RecordPrivacy.Capability.Registry
import RecordPrivacy.Cipher.Aead
import RecordPrivacy.Cipher.Aes
import RecordPrivacy.Cipher.Gcm
import RecordPrivacy.Cipher.Oaep
import RecordPrivacy.Codec
import RecordPrivacy.Codec.Json
import RecordPrivacy.Declaration.Draft
import RecordPrivacy.Declaration.FieldType
import RecordPrivacy.Declaration.Generics
import RecordPrivacy.Declaration.Guard
import RecordPrivacy.Declaration.Item
import RecordPrivacy.Declaration.Lexer
import RecordPrivacy.Declaration.Outline
import RecordPrivacy.Declaration.Strategy
import RecordPrivacy.Declaration.Token
import RecordPrivacy.Declaration.TreeReader
import RecordPrivacy.Declaration.TreeReader.Attribute
import RecordPrivacy.Declaration.TreeReader.Bound
import RecordPrivacy.Declaration.TreeReader.Discriminant
import RecordPrivacy.Declaration.TreeReader.Expression
import RecordPrivacy.Declaration.TreeReader.Parameter
import RecordPrivacy.Declaration.TreeReader.Path
import RecordPrivacy.Declaration.TreeReader.Type
import RecordPrivacy.Declaration.TypeExpr
import RecordPrivacy.Description
import RecordPrivacy.Digest.Argon2
import RecordPrivacy.Digest.Bcrypt
import RecordPrivacy.Digest.Blake2b
import RecordPrivacy.Digest.Blowfish
import RecordPrivacy.Digest.Roots
import RecordPrivacy.Digest.Sha2
import RecordPrivacy.Entropy
import RecordPrivacy.Json.Decimal
import RecordPrivacy.Json.Reader
import RecordPrivacy.Json.Scan
import RecordPrivacy.Json.Value
import RecordPrivacy.Json.Writer
import RecordPrivacy.Layout
import RecordPrivacy.Layout.Loose
import RecordPrivacy.Layout.Strict
import RecordPrivacy.Log
import RecordPrivacy.Mask.Address
import RecordPrivacy.Mask.Code
import RecordPrivacy.Mask.Digits
import RecordPrivacy.Mask.Format
import RecordPrivacy.Mask.Keep
import RecordPrivacy.Mask.Person
import RecordPrivacy.Plan
import RecordPrivacy.Plan.Cache
import RecordPrivacy.Processor
import RecordPrivacy.Proofs.Capability.Registry
import RecordPrivacy.Proofs.Capability.Lookup
import RecordPrivacy.Proofs.Declaration.Halves
import RecordPrivacy.Proofs.Declaration.Strategy
import RecordPrivacy.Proofs.Plan.Cache
import RecordPrivacy.Proofs.Plan.Compilation
import RecordPrivacy.Proofs.Plan.Distinct
import RecordPrivacy.Proofs.Plan.Fields
import RecordPrivacy.Proofs.Plan.Nesting
import RecordPrivacy.Proofs.Plan.Origin
import RecordPrivacy.Proofs.Plan.Ranges
import RecordPrivacy.Proofs.Plan.Sites
import RecordPrivacy.Proofs.Processor.Coding
import RecordPrivacy.Proofs.Processor.Events
import RecordPrivacy.Proofs.Processor.ForeignKeys
import RecordPrivacy.Proofs.Processor.Nesting
import RecordPrivacy.Proofs.Processor.Overriding
import RecordPrivacy.Proofs.Processor.Redaction
import RecordPrivacy.Proofs.Processor.RoundTrip
import RecordPrivacy.Proofs.Processor.Runs
import RecordPrivacy.Proofs.Processor.Session
import RecordPrivacy.Proofs.Processor.Soundness
import RecordPrivacy.Proofs.Processor.Validation
import RecordPrivacy.Proofs.Processor.Workshop
import RecordPrivacy.Proofs.Record.Agreement
import RecordPrivacy.Proofs.Record.Paths
import RecordPrivacy.Proofs.State
import RecordPrivacy.Proofs.Text.Base64
import RecordPrivacy.Proofs.Transform.Concealment
import RecordPrivacy.Proofs.Transform.Elements
import RecordPrivacy.Proofs.Transform.Refusal
import RecordPrivacy.Proofs.Traversal.Effect
import RecordPrivacy.Proofs.Traversal.Exact
import RecordPrivacy.Proofs.Traversal.FirstFailure
import RecordPrivacy.Proofs.Traversal.Nesting
import RecordPrivacy.Proofs.Traversal.Refused
import RecordPrivacy.Proofs.Traversal.RoundTrip
import RecordPrivacy.Record
import RecordPrivacy.Sample.Capabilities
import RecordPrivacy.Sample.Codecs
import RecordPrivacy.Sample.Forms
import RecordPrivacy.Sample.Letters
import RecordPrivacy.Sample.Overrides
import RecordPrivacy.Sample.Person
import RecordPrivacy.Sample.Script
import RecordPrivacy.Sample.Supply
import RecordPrivacy.Sample.Tokens
import RecordPrivacy.Sample.Types
import RecordPrivacy.Sample.Vault
import RecordPrivacy.Schema
import RecordPrivacy.Text.Base64
import RecordPrivacy.Text.Blank
import RecordPrivacy.Text.Identifier
import RecordPrivacy.Text.Quoted
import RecordPrivacy.Text.Unprintable
import RecordPrivacy.Text.Utf8
import RecordPrivacy.Transform
import RecordPrivacy.TransformError
import RecordPrivacy.Traversal
import RecordPrivacy.Proofs.Mask.Visible
import RecordPrivacy.Proofs.Mask.Address
import RecordPrivacy.Proofs.Traversal.Points
import RecordPrivacy.Proofs.Processor.Classification
import RecordPrivacy.Proofs.Processor.CodecCalls
import RecordPrivacy.Proofs.Processor.Registration
import RecordPrivacy.Proofs.Processor.Turns
import RecordPrivacy.Proofs.Processor.Log
import RecordPrivacy.Proofs.Processor.Discretion
import RecordPrivacy.Proofs.Bytes
import RecordPrivacy.Proofs.Cipher.Aes
import RecordPrivacy.Proofs.Cipher.Gcm
import RecordPrivacy.Proofs.Capability.Message
import RecordPrivacy.Proofs.Capability.Envelope
import RecordPrivacy.Proofs.Capability.Symmetric
import RecordPrivacy.Proofs.Capability.Truncation
import RecordPrivacy.Proofs.Text.Spelling
import RecordPrivacy.Proofs.Transform.Stored
import RecordPrivacy.Proofs.Transform.Agreement
import RecordPrivacy.Proofs.Capability.Gaps
import RecordPrivacy.Proofs.Processor.Completeness
import RecordPrivacy.Proofs.Plan.Descent
import RecordPrivacy.Proofs.Declaration.Clauses
import RecordPrivacy.Proofs.Declaration.Directives
import RecordPrivacy.Proofs.Declaration.Acceptance
import RecordPrivacy.Proofs.Lists
import RecordPrivacy.Proofs.Declaration.Mentions
import RecordPrivacy.Proofs.Declaration.Order
import RecordPrivacy.Proofs.Declaration.Wrapping
import RecordPrivacy.Declaration.Dispatch
import RecordPrivacy.Proofs.Declaration.Overrides
import RecordPrivacy.Proofs.Mask.Digits
import RecordPrivacy.Proofs.Text.Words
import RecordPrivacy.Proofs.Mask.Network
import RecordPrivacy.Proofs.Mask.Positions
import RecordPrivacy.Proofs.Mask.Again
import RecordPrivacy.Proofs.Plan.Names
import RecordPrivacy.Proofs.Declaration.Dependence
import RecordPrivacy.Proofs.Declaration.Bounds
