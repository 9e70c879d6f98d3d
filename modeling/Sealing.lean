import Sealing.Aes.Block
import Sealing.Aes.Field
import Sealing.Bytes.Ascii
import Sealing.Bytes.Base64
import Sealing.Bytes.Basic
import Sealing.Cipher.Feedback
import Sealing.Curve.Edwards
import Sealing.Curve.Modular
import Sealing.Curve.Weierstrass
import Sealing.Decimal.Digits
import Sealing.Decimal.Shortest
import Sealing.Der
import Sealing.Entropy
import Sealing.Envelope
import Sealing.Environment
import Sealing.Failure
import Sealing.Hash.Constants
import Sealing.Hash.Hmac
import Sealing.Hash.Sha2
import Sealing.Http.Coding
import Sealing.Http.Message
import Sealing.Http.Target
import Sealing.Json.Fault
import Sealing.Json.Ignored
import Sealing.Json.Literal
import Sealing.Json.Number
import Sealing.Json.Printer
import Sealing.Json.Record
import Sealing.Json.Scan
import Sealing.Key
import Sealing.Ledger
import Sealing.Listener
import Sealing.Log.Event
import Sealing.Log.Filter
import Sealing.Log.Line
import Sealing.Main
import Sealing.Net.Address
import Sealing.Net.Network
import Sealing.Primitive
import Sealing.Report
import Sealing.Run
import Sealing.Scheme
import Sealing.Scheme.Transport
import Sealing.Service.Body
import Sealing.Service.Routes
import Sealing.Settings
import Sealing.Startup
import Sealing.Stream
import Sealing.Suite
import Sealing.Text.Alphanumeric
import Sealing.Text.Blank
import Sealing.Text.Printable
import Sealing.Text.Quoted
import Sealing.Text.Utf8
import Sealing.Tls.AcceptLoop
import Sealing.Tls.Certificate
import Sealing.Tls.Handshake
import Sealing.Tls.Identity
import Sealing.Tls.Pem
import Sealing.Tls.PrivateKey
import Sealing.Workbench
import Sealing.Proofs.Operation
import Sealing.Proofs.Opening
import Sealing.Proofs.Feedback
import Sealing.Proofs.RoundTrip
import Sealing.Proofs.Bytewise
import Sealing.Proofs.Invertible
import Sealing.Proofs.MacKeys
import Sealing.Proofs.Encrypting
import Sealing.Proofs.Base64
import Sealing.Proofs.Literal
import Sealing.Proofs.Numeral
import Sealing.Proofs.Record
import Sealing.Proofs.Separation
import Sealing.Proofs.Decoding
import Sealing.Proofs.Answering
import Sealing.Proofs.Rejection
import Sealing.Proofs.History
import Sealing.Proofs.BodyLimit
import Sealing.Proofs.Canonical
import Sealing.Proofs.Grammar
import Sealing.Proofs.Tokens
import Sealing.Proofs.Skipping
import Sealing.Proofs.Unescaping
import Sealing.Proofs.Repertoire
import Sealing.Proofs.Count
import Sealing.Proofs.ObjectForms
import Sealing.Proofs.RecordForms
import Sealing.Proofs.EnvelopeForms
import Sealing.Proofs.Arrival
import Sealing.Proofs.InvalidText
import Sealing.Proofs.SealingOrder
import Sealing.Proofs.KeyText
import Sealing.Proofs.UsableKeys
import Sealing.Proofs.Validation
import Sealing.Proofs.Walking
import Sealing.Proofs.SettingsTable
import Sealing.Proofs.AcceptedTables
import Sealing.Proofs.NumericSettings
import Sealing.Proofs.StartingUp
import Sealing.Proofs.ErrorBodies
import Sealing.Proofs.WrittenRecords
import Sealing.Proofs.Secrecy
import Sealing.Proofs.Writing
import Sealing.Proofs.Reading
import Sealing.Proofs.ConnectionTasks
import Sealing.Proofs.Stopping
