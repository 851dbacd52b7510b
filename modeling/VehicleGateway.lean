import VehicleGateway.Bench.Channel
import VehicleGateway.Bench.Ecus
import VehicleGateway.Bench.Element
import VehicleGateway.Bench.Finding
import VehicleGateway.Bench.Gateway
import VehicleGateway.Bench.Keys
import VehicleGateway.Bench.Reading
import VehicleGateway.Bench.Registry
import VehicleGateway.Bench.Rig
import VehicleGateway.Bench.Router
import VehicleGateway.Bench.Script
import VehicleGateway.Bench.Storage
import VehicleGateway.Bench.Supervisor
import VehicleGateway.Bus
import VehicleGateway.Bus.Arrivals
import VehicleGateway.Bytes
import VehicleGateway.Checksum
import VehicleGateway.Cipher.Aes
import VehicleGateway.Cipher.Block
import VehicleGateway.Cipher.Derivation
import VehicleGateway.Cipher.Mac
import VehicleGateway.Cipher.Mode
import VehicleGateway.Cipher.Substitution
import VehicleGateway.Clockwork
import VehicleGateway.Config
import VehicleGateway.Config.Check
import VehicleGateway.Config.Fault
import VehicleGateway.Config.Shape
import VehicleGateway.Config.Written
import VehicleGateway.Dictionary
import VehicleGateway.Document
import VehicleGateway.Document.Access
import VehicleGateway.Document.Shape
import VehicleGateway.Document.Table
import VehicleGateway.Document.Toml
import VehicleGateway.Document.Toml.Number
import VehicleGateway.Document.Toml.Text
import VehicleGateway.Ecu.Record
import VehicleGateway.Ecu.Report
import VehicleGateway.Ecu.Stored
import VehicleGateway.Failure
import VehicleGateway.Firmware.Code
import VehicleGateway.Firmware.Header
import VehicleGateway.Gateway
import VehicleGateway.Gateway.Clock
import VehicleGateway.Gateway.Start
import VehicleGateway.Gateway.Step
import VehicleGateway.Keys.Call
import VehicleGateway.Keys.Element
import VehicleGateway.Keys.Entropy
import VehicleGateway.Keys.Fault
import VehicleGateway.Keys.Flags
import VehicleGateway.Keys.Provision
import VehicleGateway.Keys.Secret
import VehicleGateway.Keys.Service
import VehicleGateway.Keys.Slot
import VehicleGateway.Keys.Update
import VehicleGateway.Keys.Vault
import VehicleGateway.Mailbox
import VehicleGateway.Main
import VehicleGateway.Message
import VehicleGateway.Message.Identifier
import VehicleGateway.Message.Opcode
import VehicleGateway.Program
import VehicleGateway.Proofs.Checksum.Detection
import VehicleGateway.Proofs.Cipher.Codes
import VehicleGateway.Proofs.Cipher.Columns
import VehicleGateway.Proofs.Cipher.Corruption
import VehicleGateway.Proofs.Cipher.Inverse
import VehicleGateway.Proofs.Cipher.Modes
import VehicleGateway.Proofs.Config.Accepted
import VehicleGateway.Proofs.Config.Slots
import VehicleGateway.Proofs.Ecu.Alteration
import VehicleGateway.Proofs.Ecu.Stored
import VehicleGateway.Proofs.Gateway.Aftermath
import VehicleGateway.Proofs.Gateway.Authentic
import VehicleGateway.Proofs.Gateway.Beginning
import VehicleGateway.Proofs.Gateway.Consulting
import VehicleGateway.Proofs.Gateway.Corruption
import VehicleGateway.Proofs.Gateway.Freshness
import VehicleGateway.Proofs.Gateway.Interfaces
import VehicleGateway.Proofs.Gateway.Lingering
import VehicleGateway.Proofs.Gateway.Outage
import VehicleGateway.Proofs.Gateway.Outcomes
import VehicleGateway.Proofs.Gateway.Parts
import VehicleGateway.Proofs.Gateway.Polling
import VehicleGateway.Proofs.Gateway.Records
import VehicleGateway.Proofs.Gateway.Run
import VehicleGateway.Proofs.Gateway.Senders
import VehicleGateway.Proofs.Gateway.Tenancy
import VehicleGateway.Proofs.Gateway.Traffic
import VehicleGateway.Proofs.Gateway.Unresponsive
import VehicleGateway.Proofs.Gateway.Updating
import VehicleGateway.Proofs.Keys.Answers
import VehicleGateway.Proofs.Keys.Authority
import VehicleGateway.Proofs.Keys.Commands
import VehicleGateway.Proofs.Keys.Confirmation
import VehicleGateway.Proofs.Keys.Contact
import VehicleGateway.Proofs.Keys.Counters
import VehicleGateway.Proofs.Keys.Debugging
import VehicleGateway.Proofs.Keys.ElementRun
import VehicleGateway.Proofs.Keys.Encryption
import VehicleGateway.Proofs.Keys.Ending
import VehicleGateway.Proofs.Keys.Erasure
import VehicleGateway.Proofs.Keys.Faithful
import VehicleGateway.Proofs.Keys.Hiding
import VehicleGateway.Proofs.Keys.Line
import VehicleGateway.Proofs.Keys.Loadable
import VehicleGateway.Proofs.Keys.Loading
import VehicleGateway.Proofs.Keys.Mirror
import VehicleGateway.Proofs.Keys.Order
import VehicleGateway.Proofs.Keys.Passing
import VehicleGateway.Proofs.Keys.Provisioning
import VehicleGateway.Proofs.Keys.Rested
import VehicleGateway.Proofs.Keys.Retention
import VehicleGateway.Proofs.Keys.ServiceRun
import VehicleGateway.Proofs.Keys.Stages
import VehicleGateway.Proofs.Keys.Tampering
import VehicleGateway.Proofs.Keys.Token
import VehicleGateway.Proofs.Keys.VaultRun
import VehicleGateway.Proofs.Message.Heading
import VehicleGateway.Proofs.Message.Recognition
import VehicleGateway.Proofs.Registry.Restoring
import VehicleGateway.Proofs.Registry.Storing
import VehicleGateway.Proofs.Router.Indexing
import VehicleGateway.Proofs.Router.Paths
import VehicleGateway.Proofs.Router.Submission
import VehicleGateway.Proofs.Storage.Agreement
import VehicleGateway.Proofs.Storage.Lawful
import VehicleGateway.Proofs.Supervisor.Response
import VehicleGateway.Proofs.Supervisor.Round
import VehicleGateway.Proofs.Update.Account
import VehicleGateway.Proofs.Update.Calling
import VehicleGateway.Proofs.Update.Checked
import VehicleGateway.Proofs.Update.Cooperation
import VehicleGateway.Proofs.Update.Corruption
import VehicleGateway.Proofs.Update.Delivery
import VehicleGateway.Proofs.Update.Ending
import VehicleGateway.Proofs.Update.Inspection
import VehicleGateway.Proofs.Update.Outcome
import VehicleGateway.Proofs.Update.Prompt
import VehicleGateway.Proofs.Update.Protocol
import VehicleGateway.Proofs.Update.Reading
import VehicleGateway.Proofs.Update.Sifting
import VehicleGateway.Proofs.Update.Tidings
import VehicleGateway.Proofs.Update.Trace
import VehicleGateway.Proofs.Update.Turns
import VehicleGateway.Registry
import VehicleGateway.Registry.Listing
import VehicleGateway.Registry.Restore
import VehicleGateway.Router
import VehicleGateway.Router.Delivery
import VehicleGateway.Router.Forwarding
import VehicleGateway.Router.Table
import VehicleGateway.Storage
import VehicleGateway.Storage.Folder
import VehicleGateway.Storage.Memory
import VehicleGateway.Supervisor.Heartbeat
import VehicleGateway.Supervisor.Request
import VehicleGateway.Supervisor.Response
import VehicleGateway.Supervisor.Round
import VehicleGateway.Text.Blank
import VehicleGateway.Text.Column
import VehicleGateway.Text.Hex
import VehicleGateway.Text.Quoted
import VehicleGateway.Text.Span
import VehicleGateway.Text.Visible
import VehicleGateway.Update.Dialogue
import VehicleGateway.Update.Fault
import VehicleGateway.Update.Inboxes
import VehicleGateway.Update.Session
import VehicleGateway.World
