import LedgerWire.Account.Cache
import LedgerWire.Amount.Arithmetic
import LedgerWire.Document
import LedgerWire.Json.Text
import LedgerWire.Object.Json
import LedgerWire.Object.Wire
import LedgerWire.Proofs.Account.Address
import LedgerWire.Proofs.Account.Cache
import LedgerWire.Proofs.Amount.Arithmetic
import LedgerWire.Proofs.Amount.Bounds
import LedgerWire.Proofs.Amount.Division
import LedgerWire.Proofs.Amount.Json
import LedgerWire.Proofs.Amount.Quality
import LedgerWire.Proofs.Amount.Rounding
import LedgerWire.Proofs.Amount.Text
import LedgerWire.Proofs.Amount.Validity
import LedgerWire.Proofs.Amount.Wire
import LedgerWire.Proofs.Bytes
import LedgerWire.Proofs.Currency
import LedgerWire.Proofs.Currency.Text
import LedgerWire.Proofs.Decimal.Addition
import LedgerWire.Proofs.Decimal.Grammar
import LedgerWire.Proofs.Decimal.LongDivision
import LedgerWire.Proofs.Decimal.Nearest
import LedgerWire.Proofs.Decimal.NormalForm
import LedgerWire.Proofs.Decimal.Number
import LedgerWire.Proofs.Decimal.Order
import LedgerWire.Proofs.Decimal.Quotient
import LedgerWire.Proofs.Decimal.Reading
import LedgerWire.Proofs.Decimal.Rounding
import LedgerWire.Proofs.Decimal.RoundingLaws
import LedgerWire.Proofs.Decimal.Sum
import LedgerWire.Proofs.Decimal.Text
import LedgerWire.Proofs.Decimal.Tie
import LedgerWire.Proofs.Field.Registry
import LedgerWire.Proofs.Object.Arrangement
import LedgerWire.Proofs.Object.Calls
import LedgerWire.Proofs.Object.Decoding
import LedgerWire.Proofs.Object.Delimiting
import LedgerWire.Proofs.Object.Entered
import LedgerWire.Proofs.Object.Equality
import LedgerWire.Proofs.Object.Faults
import LedgerWire.Proofs.Object.Identity
import LedgerWire.Proofs.Object.Json
import LedgerWire.Proofs.Object.Levels
import LedgerWire.Proofs.Object.Made
import LedgerWire.Proofs.Object.Map
import LedgerWire.Proofs.Object.Nesting
import LedgerWire.Proofs.Object.Wire
import LedgerWire.Proofs.Path.Json
import LedgerWire.Proofs.Path.Wire
import LedgerWire.Proofs.Positional
import LedgerWire.Proofs.Success
import LedgerWire.Proofs.Text.Hex
import LedgerWire.Proofs.Text.Integer
import LedgerWire.Proofs.Text.Literal
import LedgerWire.Proofs.Transaction.Binding
import LedgerWire.Proofs.Transaction.Checking
import LedgerWire.Proofs.Transaction.Outcome
import LedgerWire.Proofs.Transaction.Readable
import LedgerWire.Proofs.Transaction.Resigning
import LedgerWire.Proofs.Transaction.Signing
import LedgerWire.Proofs.Value.Decoding
import LedgerWire.Proofs.Value.Json
import LedgerWire.Proofs.Value.Wire
import LedgerWire.Proofs.Wire.Canonical
import LedgerWire.Proofs.Wire.Delimiting
import LedgerWire.Proofs.Wire.Framing
import LedgerWire.Proofs.Wire.PrefixCode
import LedgerWire.Proofs.Wire.Reading
import LedgerWire.Proofs.Wire.Taking
import LedgerWire.Proofs.Wire.Writing
import LedgerWire.Signature.Ed25519
import LedgerWire.Transaction.Check
import LedgerWire.View
