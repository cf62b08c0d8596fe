import KeyedLedger.Bank.Basic
import KeyedLedger.Bank.Delivery
import KeyedLedger.Bank.Service
import KeyedLedger.Broker
import KeyedLedger.Currency
import KeyedLedger.Decimal.Basic
import KeyedLedger.Decimal.Sum
import KeyedLedger.Decimal.Text
import KeyedLedger.Direction
import KeyedLedger.Entity.Account
import KeyedLedger.Entity.Balance
import KeyedLedger.Entity.Draw
import KeyedLedger.Entity.Receipt
import KeyedLedger.Entity.Transaction
import KeyedLedger.Event.Envelope
import KeyedLedger.Event.Metadata
import KeyedLedger.Feed
import KeyedLedger.Gateway.Call
import KeyedLedger.Gateway.Error
import KeyedLedger.Gateway.Memory
import KeyedLedger.Gateway.Routing
import KeyedLedger.Gateway.Waiting
import KeyedLedger.Http.Api
import KeyedLedger.Http.Header
import KeyedLedger.Http.MediaType
import KeyedLedger.Http.Message
import KeyedLedger.Http.Path
import KeyedLedger.Http.Problem
import KeyedLedger.Http.Resource
import KeyedLedger.Identifier
import KeyedLedger.Json.Decoder
import KeyedLedger.Json.Document
import KeyedLedger.Json.Value
import KeyedLedger.Ledger.Basic
import KeyedLedger.Ledger.Engine
import KeyedLedger.Ledger.Error
import KeyedLedger.Ledger.Store
import KeyedLedger.Ledger.Verdict
import KeyedLedger.Message.Command
import KeyedLedger.Message.Outcome
import KeyedLedger.Message.Topics
import KeyedLedger.Metrics
import KeyedLedger.Money.Amount
import KeyedLedger.Money.Scale
import KeyedLedger.Party.Country
import KeyedLedger.Party.Customer
import KeyedLedger.PowerOfTen
import KeyedLedger.Proofs.Decimal.Reading
import KeyedLedger.Proofs.Decimal.Value
import KeyedLedger.Proofs.Entity.Move
import KeyedLedger.Proofs.Entity.Names
import KeyedLedger.Proofs.Entity.Opening
import KeyedLedger.Proofs.Ledger.Attempt
import KeyedLedger.Proofs.Ledger.Conservation
import KeyedLedger.Proofs.Ledger.History
import KeyedLedger.Proofs.Ledger.Invariant
import KeyedLedger.Proofs.Ledger.Plan
import KeyedLedger.Proofs.Ledger.Rows
import KeyedLedger.Proofs.Ledger.Step
import KeyedLedger.Proofs.Money.Cents
import KeyedLedger.Proofs.Text.Characters
import KeyedLedger.Refusal
import KeyedLedger.Service.Order
import KeyedLedger.Service.Request
import KeyedLedger.Service.View
import KeyedLedger.Settings
import KeyedLedger.Text.Ascii
import KeyedLedger.Text.Blank
import KeyedLedger.Text.Bytes
import KeyedLedger.Text.Digits
import KeyedLedger.Text.Hex
import KeyedLedger.Time.Date
import KeyedLedger.Time.Span
import KeyedLedger.Time.Text
import KeyedLedger.Time.Timestamp
import KeyedLedger.Worker.Consumer
import KeyedLedger.Worker.Drain
import KeyedLedger.Proofs.Json.Record
import KeyedLedger.Proofs.Time.Reading
import KeyedLedger.Proofs.Entity.Reading
import KeyedLedger.Proofs.Ledger.Replay
import KeyedLedger.Proofs.Ledger.Overlooked
import KeyedLedger.Proofs.Ledger.Books
import KeyedLedger.Proofs.Ledger.Refinement
import KeyedLedger.Proofs.Ledger.Effects
import KeyedLedger.Proofs.Ledger.Journal
import KeyedLedger.Proofs.Json.Written
import KeyedLedger.Proofs.Message.Reading
import KeyedLedger.Proofs.Ledger.Calm
import KeyedLedger.Proofs.Service.Order
import KeyedLedger.Proofs.Ledger.Verdict
import KeyedLedger.Proofs.Bank.Carrying
import KeyedLedger.Proofs.Gateway.Keys
import KeyedLedger.Proofs.Bank.Course
import KeyedLedger.Proofs.Bank.Transparency
import KeyedLedger.Proofs.Bank.Overlap
import KeyedLedger.Proofs.Bank.Interleaving
import KeyedLedger.Proofs.Gateway.Slots
import KeyedLedger.Proofs.Gateway.Places
import KeyedLedger.Proofs.Gateway.Desk
import KeyedLedger.Proofs.Gateway.Gathering
import KeyedLedger.Proofs.Gateway.Collapse
import KeyedLedger.Proofs.Ledger.Provenance
import KeyedLedger.Proofs.Bank.Origin
import KeyedLedger.Proofs.Bank.Errand
import KeyedLedger.Proofs.Bank.Network
import KeyedLedger.Proofs.Bank.Passage
import KeyedLedger.Proofs.Bank.Answers
import KeyedLedger.Proofs.Bank.Rejections
import KeyedLedger.Proofs.Bank.Republication
import KeyedLedger.Proofs.Bank.Wording
import KeyedLedger.Proofs.Ledger.Listing
import KeyedLedger.Proofs.Bank.Statement
import KeyedLedger.Proofs.Ledger.Separation
import KeyedLedger.Proofs.Ledger.Refusals
import KeyedLedger.Proofs.Service.Acceptance
import KeyedLedger.Proofs.Event.Headers
import KeyedLedger.Proofs.Message.Body
import KeyedLedger.Proofs.Time.Steady
import KeyedLedger.Proofs.Gateway.Recall
import KeyedLedger.Proofs.Gateway.Purging
import KeyedLedger.Proofs.Gateway.Delivery
import KeyedLedger.Proofs.Bank.Entrance
import KeyedLedger.Proofs.Money.Validity
import KeyedLedger.Proofs.Entity.Arithmetic
import KeyedLedger.Proofs.Entity.Currencies
import KeyedLedger.Proofs.Service.Currencies
import KeyedLedger.Proofs.Ledger.Resolution
import KeyedLedger.Proofs.Json.Scanning
import KeyedLedger.Proofs.Json.Locality
import KeyedLedger.Proofs.Json.Place
import KeyedLedger.Proofs.Json.Numeral
import KeyedLedger.Proofs.Decimal.Exactness
import KeyedLedger.Proofs.Message.Amount
import KeyedLedger.Proofs.Worker.Consuming
import KeyedLedger.Proofs.Feed.Listening
import KeyedLedger.Proofs.Http.Tracing
import KeyedLedger.Proofs.Ledger.Treatment
import KeyedLedger.Proofs.Metrics.Counting
import KeyedLedger.Proofs.Bank.Actions
import KeyedLedger.Proofs.Bank.Counting
import KeyedLedger.Proofs.Broker.Reading
import KeyedLedger.Proofs.Broker.Audience
import KeyedLedger.Proofs.Broker.Delivery
