import SpotGateway.Session.Rehearsal
import SpotGateway.Wire.Entities
import SpotGateway.Proofs.RateLimit.Fitting
import SpotGateway.Proofs.RateLimit.Monitoring
import SpotGateway.Proofs.RateLimit.Retry
import SpotGateway.Proofs.Session.Settlement
import SpotGateway.Proofs.Session.Freshness
import SpotGateway.Proofs.Session.Registration
import SpotGateway.Proofs.Session.Gate
import SpotGateway.Proofs.Order.History
import SpotGateway.Proofs.Order.Phase
import SpotGateway.Proofs.Order.Separation
import SpotGateway.Proofs.Order.Sequences
import SpotGateway.Proofs.Order.Refusal
import SpotGateway.Proofs.Session.BrokenLists
import SpotGateway.Proofs.Session.Interruption
import SpotGateway.Proofs.Session.Secrecy
import SpotGateway.Proofs.Session.Synchrony
import SpotGateway.Proofs.Session.Validation
import SpotGateway.Proofs.Wire.Amount
import SpotGateway.Proofs.Order.Rearrangement
import SpotGateway.Proofs.Session.Evolution
import SpotGateway.Proofs.Session.OrderLists
import SpotGateway.Proofs.Authentication.Decoration
import SpotGateway.Proofs.Authentication.Signature
import SpotGateway.Proofs.Session.Requests
import SpotGateway.Proofs.Session.Aliases
import SpotGateway.Proofs.Session.Attribution
import SpotGateway.Proofs.Wire.Levels
import SpotGateway.Proofs.Symbols.Assets
import SpotGateway.Proofs.Session.ClockAccuracy
import SpotGateway.Proofs.Wire.Agreement
import SpotGateway.Proofs.Wire.Envelope
import SpotGateway.Proofs.Session.Naming
