import SealedToken.Bytes
import SealedToken.Choice
import SealedToken.Text.Unprintable
import SealedToken.Text.Quoted
import SealedToken.Text.Hex
import SealedToken.Text.Base64
import SealedToken.Text.Form
import SealedToken.Envelope.Tag
import SealedToken.Envelope.Error
import SealedToken.Envelope.KeyVersion
import SealedToken.Envelope.Basic
import SealedToken.Envelope.Scan
import SealedToken.Nonce
import SealedToken.Cipher.Scheme
import SealedToken.Cipher.Aes
import SealedToken.Cipher.Gcm
import SealedToken.Cipher.ChaCha20
import SealedToken.Cipher.Poly1305
import SealedToken.Cipher.Suite
import SealedToken.Hash.Padding
import SealedToken.Hash.Sha1
import SealedToken.Hash.Sha2
import SealedToken.Hash.Algorithm
import SealedToken.Key.Query
import SealedToken.Key.SecretForm
import SealedToken.Event
import SealedToken.Action
import SealedToken.NonceSource
import SealedToken.Key.Source
import SealedToken.Key.Fixed
import SealedToken.Key.Ring
import SealedToken.Key.ParameterStore
import SealedToken.Key.SecretStore
import SealedToken.Error
import SealedToken.Service.Codec
import SealedToken.Service.Signer
import SealedToken.Service.Csrf
import SealedToken.Json.Basic
import SealedToken.Json.Parser
import SealedToken.Config
import SealedToken.Config.Json
import SealedToken.Service.Operation
import SealedToken.Session
import SealedToken.Inspect
import SealedToken.Proofs.Outcome
import SealedToken.Proofs.Entropy
import SealedToken.Proofs.Log
import SealedToken.Proofs.Text.Ascii
import SealedToken.Proofs.Text.Utf8
import SealedToken.Proofs.Text.Hex
import SealedToken.Proofs.Text.Base64
import SealedToken.Proofs.Text.Bits
import SealedToken.Proofs.Text.Form
import SealedToken.Proofs.Text.Canonical
import SealedToken.Proofs.Text.Quoted
import SealedToken.Proofs.Envelope.KeyVersion
import SealedToken.Proofs.Envelope.Row
import SealedToken.Proofs.Envelope.WireForm
import SealedToken.Proofs.Envelope.Fault
import SealedToken.Proofs.Envelope.Canonical
import SealedToken.Proofs.Envelope.Grammar
import SealedToken.Proofs.Envelope.Prefix
import SealedToken.Proofs.Envelope.Turns
import SealedToken.Proofs.Cipher
import SealedToken.Proofs.Cipher.KeySchedule
import SealedToken.Proofs.Cipher.Opening
import SealedToken.Proofs.Key.Ring
import SealedToken.Proofs.Key.SecretForm
import SealedToken.Proofs.Key.Lenient
import SealedToken.Proofs.Key.SecretStore
import SealedToken.Proofs.Key.ParameterStore
import SealedToken.Proofs.Service.Codec
import SealedToken.Proofs.Service.Signer
import SealedToken.Proofs.Service.Csrf
import SealedToken.Proofs.Service.Recorded
import SealedToken.Proofs.Service.Verdict
import SealedToken.Proofs.Service.Refusal
import SealedToken.Proofs.Service.Sealing
import SealedToken.Proofs.Service.Signing
import SealedToken.Proofs.Service.Salt
import SealedToken.Proofs.Service.Rotation
import SealedToken.Proofs.Service.Separation
import SealedToken.Proofs.Service.Freshness
import SealedToken.Proofs.Service.Log
import SealedToken.Proofs.Service.Secrecy
import SealedToken.Proofs.Service.Size
import SealedToken.Proofs.Json.Grammar
import SealedToken.Proofs.Json.Token
import SealedToken.Proofs.Json.Value
import SealedToken.Proofs.Config
import SealedToken.Proofs.Inspect
import SealedToken.Proofs.Diagnosis
