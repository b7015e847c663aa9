import FileMarket.Action
import FileMarket.Calendar.Date
import FileMarket.Calendar.Reader
import FileMarket.CommandLine.Arguments
import FileMarket.CommandLine.Playback
import FileMarket.CommandLine.Program
import FileMarket.CommandLine.Run
import FileMarket.CommandLine.Table
import FileMarket.CommandLine.Tasks
import FileMarket.Config
import FileMarket.Decimal.Binary64
import FileMarket.Decimal.Fixed
import FileMarket.Decimal.Notation
import FileMarket.Decimal.Reader
import FileMarket.Decimal.Shortest
import FileMarket.Desk.Basic
import FileMarket.Desk.Command
import FileMarket.Desk.Drive
import FileMarket.Desk.Report
import FileMarket.Disposition
import FileMarket.Error
import FileMarket.FileKind
import FileMarket.FileKind.Table
import FileMarket.Filter.Bucket
import FileMarket.Filter.Criteria
import FileMarket.Grid.Basic
import FileMarket.Grid.Toolbar
import FileMarket.Http.Message
import FileMarket.Http.Node
import FileMarket.Http.Octets
import FileMarket.Http.Transport
import FileMarket.Json.Document
import FileMarket.Json.Printer
import FileMarket.Json.Reader
import FileMarket.Json.Value
import FileMarket.Layout
import FileMarket.Main
import FileMarket.Negotiation.Answer
import FileMarket.Negotiation.Basic
import FileMarket.Negotiation.Step
import FileMarket.Node
import FileMarket.Price
import FileMarket.Receipt
import FileMarket.Record
import FileMarket.Section
import FileMarket.Selection
import FileMarket.Sort.Records
import FileMarket.Sort.Spec
import FileMarket.Storage.Directory
import FileMarket.Storage.FileName
import FileMarket.Storage.Save
import FileMarket.Text.Alphanumeric
import FileMarket.Text.Ascii
import FileMarket.Text.Blank
import FileMarket.Text.CaseFold
import FileMarket.Text.FormValue
import FileMarket.Text.Lowercase
import FileMarket.Text.NaturalOrder
import FileMarket.Text.Utf8
import FileMarket.Toml.Reader
import FileMarket.Toml.Scalar
import FileMarket.Toml.Table
import FileMarket.Url.Address
import FileMarket.Url.Basic
import FileMarket.Url.Escape
import FileMarket.Url.Punycode
import FileMarket.Url.Reader
import FileMarket.Wire.Fault
import FileMarket.Wire.Lenient
import FileMarket.Wire.Record
import FileMarket.Wire.Texts
import FileMarket.Wire.Wallet
import FileMarket.Proofs.Negotiation.History
import FileMarket.Proofs.Negotiation.Transition
import FileMarket.Proofs.Text.Blank
import FileMarket.Proofs.Negotiation.Coherence
import FileMarket.Proofs.Negotiation.Tickets
import FileMarket.Proofs.Negotiation.Purchase
import FileMarket.Proofs.Negotiation.SinglePurchase
import FileMarket.Proofs.Grid.History
import FileMarket.Proofs.Grid.Consistency
import FileMarket.Proofs.Desk.Parts
import FileMarket.Proofs.Desk.Office
import FileMarket.Proofs.Desk.Errands
import FileMarket.Proofs.Desk.Batches
import FileMarket.Proofs.Grid.Restoration
import FileMarket.Proofs.Storage.Save
import FileMarket.Proofs.Storage.Confinement
import FileMarket.Proofs.Storage.Overlap
import FileMarket.Proofs.Grid.Rows
import FileMarket.Proofs.Grid.Toolbar
import FileMarket.Proofs.Negotiation.Receipts
import FileMarket.Proofs.Calendar.Print
import FileMarket.Proofs.Wire.Listings
import FileMarket.Proofs.Wire.RoundTrip
import FileMarket.Proofs.Desk.Idle
import FileMarket.Proofs.Negotiation.Refusals
import FileMarket.Proofs.Negotiation.Retries
import FileMarket.Proofs.Negotiation.Naming
import FileMarket.Proofs.Desk.Entries
import FileMarket.Proofs.Desk.Purchases
import FileMarket.Proofs.Desk.Relisting
import FileMarket.Proofs.Negotiation.Balance
import FileMarket.Proofs.Negotiation.Commutation
import FileMarket.Proofs.Desk.Commutation
import FileMarket.Proofs.Filter.Tags
import FileMarket.Proofs.CommandLine.Opening
import FileMarket.Proofs.CommandLine.Listing
import FileMarket.Proofs.CommandLine.Selecting
import FileMarket.Proofs.CommandLine.Batches
import FileMarket.Proofs.Negotiation.Prices
import FileMarket.Proofs.Grid.Batches
import FileMarket.Proofs.Decimal.Value
import FileMarket.Proofs.Decimal.Rounding
import FileMarket.Proofs.Decimal.Counts
import FileMarket.Proofs.Wire.Counts
import FileMarket.Proofs.Desk.Driving
import FileMarket.Proofs.Desk.Offers
import FileMarket.Proofs.Http.Requests
import FileMarket.Proofs.Http.Exchanges
import FileMarket.Proofs.CommandLine.Offers
import FileMarket.Proofs.CommandLine.Bargaining
import FileMarket.Proofs.CommandLine.Buying
import FileMarket.Proofs.CommandLine.Purchases
import FileMarket.Proofs.Storage.NormalForm
import FileMarket.Proofs.Storage.FreeName
import FileMarket.Proofs.Text.Utf8
import FileMarket.Proofs.Disposition.ExtendedName
import FileMarket.Proofs.Disposition.QuotedName
import FileMarket.Proofs.Calendar.DayNumber
import FileMarket.Proofs.Filter.Windows
import FileMarket.Proofs.Calendar.Spellings
import FileMarket.Proofs.Text.NumberedNames
import FileMarket.Proofs.Wire.Prices
import FileMarket.Proofs.Desk.Settling
import FileMarket.Proofs.Receipt
import FileMarket.Proofs.FileKind
import FileMarket.Proofs.Filter.Missing
import FileMarket.Proofs.Disposition.Precedence
