import SecureMessenger.Library.Framing
import SecureMessenger.Library.Fallible
import SecureMessenger.Library.Table
import SecureMessenger.Basic
import SecureMessenger.Library.Machine
import SecureMessenger.Capability.Encoding
import SecureMessenger.Relay.Tables
import SecureMessenger.Relay.Operations
import SecureMessenger.Relay.Schema
import SecureMessenger.Relay.Step
import SecureMessenger.Relay.Mailbox
import SecureMessenger.Relay.Projection
import SecureMessenger.Relay.Simulation
import SecureMessenger.Relay.Behaviour
import SecureMessenger.Relay.Replay
import SecureMessenger.Relay.Fifo
import SecureMessenger.Relay.Invariant
import SecureMessenger.Relay.Separation
import SecureMessenger.Relay.Lifecycle
import SecureMessenger.Relay.Isolation
import SecureMessenger.Persistence.Database
import SecureMessenger.Persistence.Effect
import SecureMessenger.Library.Succession
import SecureMessenger.Persistence.Chain
import SecureMessenger.Persistence.Tamper
import SecureMessenger.Client.Olm
import SecureMessenger.Client.Network
import SecureMessenger.Client.Recipient
import SecureMessenger.Client.Acknowledgement
import SecureMessenger.Relay.Commit
import SecureMessenger.Relay.Representation
import SecureMessenger.Relay.Delivery
import SecureMessenger.Relay.Retention
import SecureMessenger.Relay.Admission
import SecureMessenger.Relay.Retry
import SecureMessenger.Relay.Opening
import SecureMessenger.Relay.Restart
import SecureMessenger.Client.Commands
import SecureMessenger.Client.Staging
import SecureMessenger.Client.Sessions
import SecureMessenger.Persistence.Limits
import SecureMessenger.Library.Uri
import SecureMessenger.Relay.Preflight
import SecureMessenger.Library.Immediate
import SecureMessenger.Relay.Statements
import SecureMessenger.Relay.Concurrent
import SecureMessenger.Client.Ratchet
import SecureMessenger.Relay.Inbox
import SecureMessenger.Client.Conversation
import SecureMessenger.Client.Refinement
import SecureMessenger.Client.Exchange
import SecureMessenger.Client.Demo
import SecureMessenger.Library.Slots
import SecureMessenger.Persistence.Rollback
import SecureMessenger.Persistence.Opacity
