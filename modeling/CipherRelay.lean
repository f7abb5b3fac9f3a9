import CipherRelay.Artifact
import CipherRelay.Artifact.Message
import CipherRelay.Bytes
import CipherRelay.Exchange.Basic
import CipherRelay.Exchange.Dialogue
import CipherRelay.Failure
import CipherRelay.Handoff.Consumer
import CipherRelay.Handoff.Plaintext
import CipherRelay.Handoff.Producer
import CipherRelay.Hash.Blake2s
import CipherRelay.Json.Basic
import CipherRelay.Json.Lexeme
import CipherRelay.Json.Number
import CipherRelay.Json.Record
import CipherRelay.Json.Text
import CipherRelay.Mailbox.Desk
import CipherRelay.Mailbox.Server
import CipherRelay.Mailbox.Store
import CipherRelay.Message
import CipherRelay.Party.Connection
import CipherRelay.Party.Error
import CipherRelay.Party.Link
import CipherRelay.Party.Machine
import CipherRelay.Party.Participant
import CipherRelay.Party.Run
import CipherRelay.Party.Script
import CipherRelay.Proofs.Artifact.Errors
import CipherRelay.Proofs.Artifact.Sizes
import CipherRelay.Proofs.Exchange.Deposits
import CipherRelay.Proofs.Exchange.Failures
import CipherRelay.Proofs.Exchange.Pace
import CipherRelay.Proofs.Exchange.Pairs
import CipherRelay.Proofs.Exchange.Paths
import CipherRelay.Proofs.Exchange.Roles
import CipherRelay.Proofs.Handoff.Succession
import CipherRelay.Proofs.Handoff.Verification
import CipherRelay.Proofs.Mailbox.Clearing
import CipherRelay.Proofs.Mailbox.Refinement
import CipherRelay.Proofs.Party.Delivery
import CipherRelay.Proofs.Party.Driving
import CipherRelay.Proofs.Party.History
import CipherRelay.Proofs.Relay.Capacity
import CipherRelay.Proofs.Relay.DerivedKeys
import CipherRelay.Proofs.Relay.Frames
import CipherRelay.Proofs.Relay.Interleaving
import CipherRelay.Proofs.Relay.MailboxLaw
import CipherRelay.Proofs.Relay.Retrieval
import CipherRelay.Proofs.Relay.Sessions
import CipherRelay.Proofs.Relay.Settings
import CipherRelay.Proofs.Scheme.Circuits
import CipherRelay.Proofs.Scheme.Decryption
import CipherRelay.Proofs.Scheme.ReEncryption
import CipherRelay.Proofs.Scheme.TotalSums
import CipherRelay.Proofs.Scheme.Validation
import CipherRelay.Proofs.Threshold.Agreement
import CipherRelay.Proofs.Threshold.JointResults
import CipherRelay.Proofs.Threshold.KeyAgreement
import CipherRelay.Proofs.Threshold.RoundOrder
import CipherRelay.Proofs.Threshold.Verdicts
import CipherRelay.Proofs.Wire.Bodies
import CipherRelay.Proofs.Wire.Canonical
import CipherRelay.Proofs.Wire.Fragments
import CipherRelay.Proofs.Wire.Streams
import CipherRelay.Random
import CipherRelay.Relay.Basic
import CipherRelay.Relay.Error
import CipherRelay.Relay.Handler
import CipherRelay.Relay.Service
import CipherRelay.Relay.Settings
import CipherRelay.Scheme.Context
import CipherRelay.Scheme.Evaluation
import CipherRelay.Scheme.KeyGeneration
import CipherRelay.Scheme.Keys
import CipherRelay.Scheme.Residues
import CipherRelay.Session
import CipherRelay.Tag
import CipherRelay.Text.Blank
import CipherRelay.Text.Numeral
import CipherRelay.Text.Quoted
import CipherRelay.Text.Unmarked
import CipherRelay.Threshold.Alice
import CipherRelay.Threshold.Bob
import CipherRelay.Threshold.Expected
import CipherRelay.Threshold.Knowledge
import CipherRelay.Wire.Frame
import CipherRelay.Wire.Stream
