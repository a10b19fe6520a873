import PaymentTrust.Address
import PaymentTrust.Bytes.Base64
import PaymentTrust.Bytes.Basic
import PaymentTrust.Bytes.Der
import PaymentTrust.Bytes.Hex
import PaymentTrust.Curve.Edwards
import PaymentTrust.Curve.Residue
import PaymentTrust.Curve.Weierstrass
import PaymentTrust.Digest.Keccak
import PaymentTrust.Digest.Sha2
import PaymentTrust.Identity
import PaymentTrust.Json.Basic
import PaymentTrust.Json.Canonical
import PaymentTrust.Json.Draft
import PaymentTrust.Json.Numeral
import PaymentTrust.Json.Real
import PaymentTrust.Json.Record
import PaymentTrust.Json.Render
import PaymentTrust.Json.Stray
import PaymentTrust.Json.Token
import PaymentTrust.Ledger.Basic
import PaymentTrust.Ledger.Consumed
import PaymentTrust.Ledger.Replay
import PaymentTrust.LinkedObject
import PaymentTrust.Mandate.Basic
import PaymentTrust.Mandate.Error
import PaymentTrust.Mandate.Payload
import PaymentTrust.Mandate.Policy
import PaymentTrust.Mandate.Verifier
import PaymentTrust.Mandate.Wire
import PaymentTrust.MessageSignature.Detached
import PaymentTrust.MessageSignature.Error
import PaymentTrust.MessageSignature.Input
import PaymentTrust.MessageSignature.Label
import PaymentTrust.MessageSignature.Policy
import PaymentTrust.MessageSignature.Request
import PaymentTrust.MessageSignature.Validator
import PaymentTrust.Paywall.Basic
import PaymentTrust.Paywall.Header
import PaymentTrust.Paywall.Policy
import PaymentTrust.Paywall.Verifier
import PaymentTrust.Proofs.Bytes.Base64
import PaymentTrust.Proofs.Bytes.Base64Canonical
import PaymentTrust.Proofs.Bytes.Base64Reading
import PaymentTrust.Proofs.Bytes.Basic
import PaymentTrust.Proofs.Bytes.Der
import PaymentTrust.Proofs.Bytes.Hex
import PaymentTrust.Proofs.Bytes.HexNumeral
import PaymentTrust.Proofs.Identity
import PaymentTrust.Proofs.Json.Canonical
import PaymentTrust.Proofs.Json.Characters
import PaymentTrust.Proofs.Json.Fields
import PaymentTrust.Proofs.Json.Induction
import PaymentTrust.Proofs.Json.Members
import PaymentTrust.Proofs.Json.NormalForm
import PaymentTrust.Proofs.Json.Numerals
import PaymentTrust.Proofs.Json.Path
import PaymentTrust.Proofs.Json.Printable
import PaymentTrust.Proofs.Json.Reading
import PaymentTrust.Proofs.Json.Record
import PaymentTrust.Proofs.Json.Reordering
import PaymentTrust.Proofs.Json.Strings
import PaymentTrust.Proofs.Ledger.Archive
import PaymentTrust.Proofs.Ledger.Basic
import PaymentTrust.Proofs.Ledger.Capacity
import PaymentTrust.Proofs.Ledger.ConsumedRun
import PaymentTrust.Proofs.Ledger.Live
import PaymentTrust.Proofs.Ledger.ReplayRun
import PaymentTrust.Proofs.LinkedObject
import PaymentTrust.Proofs.Mandate.Acceptance
import PaymentTrust.Proofs.Mandate.Amount
import PaymentTrust.Proofs.Mandate.Clash
import PaymentTrust.Proofs.Mandate.Commutation
import PaymentTrust.Proofs.Mandate.Content
import PaymentTrust.Proofs.Mandate.ContentRun
import PaymentTrust.Proofs.Mandate.Footprint
import PaymentTrust.Proofs.Mandate.Interleaving
import PaymentTrust.Proofs.Mandate.ListingOrder
import PaymentTrust.Proofs.Mandate.PaymentSignature
import PaymentTrust.Proofs.Mandate.Reachable
import PaymentTrust.Proofs.Mandate.Recording
import PaymentTrust.Proofs.Mandate.Rejection
import PaymentTrust.Proofs.Mandate.Run
import PaymentTrust.Proofs.Mandate.SigningAlphabet
import PaymentTrust.Proofs.Mandate.SigningInput
import PaymentTrust.Proofs.Mandate.Spelling
import PaymentTrust.Proofs.Mandate.Strictness
import PaymentTrust.Proofs.Mandate.Wire
import PaymentTrust.Proofs.MessageSignature.Acceptance
import PaymentTrust.Proofs.MessageSignature.Binding
import PaymentTrust.Proofs.MessageSignature.Detached
import PaymentTrust.Proofs.MessageSignature.Grammar
import PaymentTrust.Proofs.MessageSignature.Header
import PaymentTrust.Proofs.MessageSignature.Parameter
import PaymentTrust.Proofs.MessageSignature.Request
import PaymentTrust.Proofs.MessageSignature.RoundTrip
import PaymentTrust.Proofs.MessageSignature.Run
import PaymentTrust.Proofs.Paywall.Header
import PaymentTrust.Proofs.Paywall.LifeCycle
import PaymentTrust.Proofs.Run
import PaymentTrust.Proofs.SharedStore
import PaymentTrust.Proofs.Signature.EcdsaP256
import PaymentTrust.Proofs.Signature.Jwk
import PaymentTrust.Proofs.Signature.RsaKey
import PaymentTrust.Proofs.Signature.RsaPss
import PaymentTrust.Proofs.Signature.Selection
import PaymentTrust.Proofs.SigningPayload
import PaymentTrust.Proofs.Text.Numeral
import PaymentTrust.Proofs.Text.Spacing
import PaymentTrust.Proofs.Text.Split
import PaymentTrust.Proofs.Text.Utf8
import PaymentTrust.Proofs.Timestamp
import PaymentTrust.Proofs.TransferAuthorization.Digest
import PaymentTrust.Proofs.TransferAuthorization.Encoding
import PaymentTrust.Proofs.TransferAuthorization.Execution
import PaymentTrust.Proofs.TransferAuthorization.HexField
import PaymentTrust.Proofs.Variables
import PaymentTrust.Proofs.Verdict
import PaymentTrust.Proofs.Word256
import PaymentTrust.Settings
import PaymentTrust.Signature.Algorithm
import PaymentTrust.Signature.EcdsaP256
import PaymentTrust.Signature.Ed25519
import PaymentTrust.Signature.Jwk
import PaymentTrust.Signature.RsaKey
import PaymentTrust.Signature.RsaPss
import PaymentTrust.Signature.Standard
import PaymentTrust.Signature.Verifier
import PaymentTrust.SigningPayload
import PaymentTrust.Text.Blank
import PaymentTrust.Text.Numeral
import PaymentTrust.Text.Utf8
import PaymentTrust.Timestamp
import PaymentTrust.Toml.Basic
import PaymentTrust.Toml.Lexis
import PaymentTrust.Toml.Reader
import PaymentTrust.Toml.Scalar
import PaymentTrust.TransferAuthorization.Basic
import PaymentTrust.TransferAuthorization.Encoding
import PaymentTrust.TransferAuthorization.Error
import PaymentTrust.TransferAuthorization.Verifier
import PaymentTrust.Verdict
import PaymentTrust.Word256
