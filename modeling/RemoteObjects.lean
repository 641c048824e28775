import RemoteObjects.Client.Config
import RemoteObjects.Entropy
import RemoteObjects.Proofs.Client.Attempts
import RemoteObjects.Proofs.Client.Exchanges
import RemoteObjects.Proofs.Client.Overlong
import RemoteObjects.Proofs.Client.Stacking
import RemoteObjects.Proofs.Json.Reading
import RemoteObjects.Proofs.Keyed
import RemoteObjects.Proofs.Launch.Flags
import RemoteObjects.Proofs.Launch.Overlap
import RemoteObjects.Proofs.Launch.Sequence
import RemoteObjects.Proofs.MethodTable
import RemoteObjects.Proofs.Pool
import RemoteObjects.Proofs.Proxy.Building
import RemoteObjects.Proofs.Proxy.Contract
import RemoteObjects.Proofs.Proxy.Creating
import RemoteObjects.Proofs.Proxy.Deeds
import RemoteObjects.Proofs.Proxy.Descriptors
import RemoteObjects.Proofs.Proxy.Family
import RemoteObjects.Proofs.Proxy.Faults
import RemoteObjects.Proofs.Proxy.Hosting
import RemoteObjects.Proofs.Proxy.Life
import RemoteObjects.Proofs.Proxy.Owning
import RemoteObjects.Proofs.Proxy.Transparency
import RemoteObjects.Proofs.Retry.Excess
import RemoteObjects.Proofs.Retry.Repetition
import RemoteObjects.Proofs.Retry.Sources
import RemoteObjects.Proofs.Retry.Validity
import RemoteObjects.Proofs.Retry.Venture
import RemoteObjects.Proofs.Settings
import RemoteObjects.Proofs.Tcp.Custody
import RemoteObjects.Proofs.Tcp.Replies
import RemoteObjects.Proofs.Transport.Framing
import RemoteObjects.Proofs.Wire.Arguments
import RemoteObjects.Proofs.Wire.Forwarding
import RemoteObjects.Proofs.Wire.Length
import RemoteObjects.Proofs.Wire.Nesting
import RemoteObjects.Proofs.Wire.OneOutcome
import RemoteObjects.Proofs.Wire.Order
import RemoteObjects.Proofs.Wire.RoundTrip
import RemoteObjects.Rehearsal.Backend
import RemoteObjects.Rehearsal.Flaky
import RemoteObjects.Rehearsal.Machine
import RemoteObjects.Rehearsal.Outcomes
import RemoteObjects.Rehearsal.Play
import RemoteObjects.Rehearsal.Props
import RemoteObjects.Rehearsal.Script
import RemoteObjects.Rehearsal.Unreachable
