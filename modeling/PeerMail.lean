import PeerMail.BlockStore
import PeerMail.Bytes
import PeerMail.Bytes.Base64
import PeerMail.Bytes.Hex
import PeerMail.Bytes.Lanes
import PeerMail.Cipher.ChaCha20
import PeerMail.Cipher.Poly1305
import PeerMail.Cipher.XChaCha20Poly1305
import PeerMail.Curve.Edwards
import PeerMail.Curve.Field
import PeerMail.Curve.Montgomery
import PeerMail.Curve.Signature
import PeerMail.Delivery.Flush
import PeerMail.Delivery.Pages
import PeerMail.Delivery.Relay
import PeerMail.Delivery.ReportText
import PeerMail.Delivery.Schedule
import PeerMail.Delivery.Transport
import PeerMail.Hash.Blake3
import PeerMail.Hash.Derivation
import PeerMail.Hash.Sha2
import PeerMail.Identity
import PeerMail.Inbound.Dispatch
import PeerMail.Inbound.Error
import PeerMail.Inbound.State
import PeerMail.Json.Text
import PeerMail.Keypair
import PeerMail.MessagePack.Record
import PeerMail.MessagePack.Value
import PeerMail.Node
import PeerMail.Settings
import PeerMail.Store.Database
import PeerMail.Store.Directory
import PeerMail.Store.Error
import PeerMail.Store.Queue
import PeerMail.Store.Table
import PeerMail.Text.Hidden
import PeerMail.Text.Quoted
import PeerMail.Text.Utf8
import PeerMail.Thread.Admission
import PeerMail.Thread.Apply
import PeerMail.Thread.Registry
import PeerMail.Toml.Document
import PeerMail.Toml.Scalar
import PeerMail.Toml.Tree
import PeerMail.Wire.Codec
import PeerMail.Wire.Envelope
import PeerMail.Wire.Error
import PeerMail.Wire.Message
import PeerMail.Wire.ThreadBlock
import PeerMail.Proofs.Fallible
import PeerMail.Proofs.Thread.Checks
import PeerMail.Proofs.Thread.Registry
import PeerMail.Proofs.Thread.Atomicity
import PeerMail.Proofs.Inbound.Effects
import PeerMail.Proofs.Inbound.Relay
import PeerMail.Proofs.Store.Tables
import PeerMail.Proofs.Store.Frames
import PeerMail.Proofs.Delivery.Frames
import PeerMail.Proofs.Inbound.Soundness
import PeerMail.Proofs.Node.Runs
import PeerMail.Proofs.Delivery.Grouping
import PeerMail.Proofs.Delivery.Listing
import PeerMail.Proofs.Delivery.Routing
import PeerMail.Proofs.Delivery.Cursor
import PeerMail.Proofs.Delivery.Recording
import PeerMail.Proofs.Delivery.Walk
import PeerMail.Proofs.Delivery.Completeness
import PeerMail.Proofs.Inbound.Authority
import PeerMail.Proofs.MessagePack.Reading
import PeerMail.Proofs.MessagePack.RoundTrip
import PeerMail.Proofs.MessagePack.Members
import PeerMail.Proofs.Wire.Codec
import PeerMail.Proofs.Delivery.Contents
import PeerMail.Proofs.Delivery.Postings
import PeerMail.Proofs.Delivery.Steps
import PeerMail.Proofs.Delivery.Interleaving
import PeerMail.Proofs.Delivery.Sequential
import PeerMail.Proofs.Curve.Prime
import PeerMail.Proofs.Curve.Field
import PeerMail.Proofs.Curve.Addition
import PeerMail.Proofs.Curve.Group
import PeerMail.Proofs.Curve.Encoding
import PeerMail.Proofs.Curve.Signature
import PeerMail.Proofs.Wire.Universal
import PeerMail.Proofs.Wire.Honest
import PeerMail.Proofs.Thread.Repetition
import PeerMail.Proofs.Node.Replay
import PeerMail.Proofs.Thread.Hosting
import PeerMail.Proofs.Thread.Interleaving
import PeerMail.Proofs.Thread.Race
import PeerMail.Proofs.Thread.Rollback
import PeerMail.Proofs.Text.Hex
import PeerMail.Proofs.Node.Journey
import PeerMail.Proofs.Node.Negotiation
import PeerMail.Proofs.Delivery.Order
import PeerMail.Proofs.Inbound.Agreement
import PeerMail.Proofs.Thread.Acceptance
import PeerMail.Proofs.Delivery.Quarantine
import PeerMail.Proofs.Node.Readmission
import PeerMail.Proofs.Text.Base64
import PeerMail.Proofs.Wire.Boxes
import PeerMail.Proofs.Inbound.Overlap
import PeerMail.Proofs.Delivery.Custody
import PeerMail.Proofs.Delivery.Accounts
import PeerMail.Proofs.Delivery.Collaborators
import PeerMail.Proofs.Wire.Separation
import PeerMail.Proofs.Json.Strings
import PeerMail.Proofs.Store.Directory
import PeerMail.Proofs.Delivery.Progress
