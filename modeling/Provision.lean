import Provision.Compute.Mock
import Provision.Http.Script
import Provision.Main
import Provision.Storage
import Provision.Proofs.Timeline
import Provision.Proofs.Polling
import Provision.Proofs.Service
import Provision.Proofs.World
import Provision.Proofs.Creation.Attempt
import Provision.Proofs.Creation.Conclusion
import Provision.Proofs.Mock
import Provision.Proofs.Creation.Protocol
import Provision.Proofs.Creation.Separation
import Provision.Proofs.Creation.Report
import Provision.Proofs.Actions
import Provision.Proofs.OnMock
import Provision.Proofs.Convergence
import Provision.Proofs.Deletion
import Provision.Proofs.Invariants
import Provision.Proofs.Persistence
import Provision.Proofs.Client
import Provision.Proofs.Presence
import Provision.Proofs.Lockstep
import Provision.Proofs.Keyed
import Provision.Proofs.Isolation
import Provision.Proofs.Coherence
import Provision.Proofs.Creation.Surfacing
import Provision.Proofs.Json.Faithful
import Provision.Proofs.Formats
import Provision.Proofs.Json.Printing
import Provision.Proofs.Json.Tolerance
import Provision.Proofs.Json.Recognition
import Provision.Proofs.Json.Path
import Provision.Proofs.Request
import Provision.Proofs.Base64
import Provision.Proofs.Creation.BootData
import Provision.Proofs.Indistinct
import Provision.Proofs.Similar
import Provision.Proofs.Secrecy
import Provision.Proofs.Address
import Provision.Proofs.Identity
import Provision.Proofs.Schedule
import Provision.Proofs.Clearance
import Provision.Proofs.Names
import Provision.Proofs.Violations
import Provision.Proofs.Punctual
import Provision.Proofs.Budget
import Provision.Proofs.Attempts
import Provision.Proofs.Waiting
import Provision.Proofs.Refreshing
import Provision.Proofs.Files.Names
import Provision.Proofs.NameGrammar
import Provision.Proofs.Files.Walk
import Provision.Proofs.Manifest
import Provision.Proofs.Json.Retention
import Provision.Proofs.Retention
import Provision.Proofs.Confinement
import Provision.Proofs.Mock.Runs
import Provision.Proofs.Mock.LifeCycle
import Provision.Proofs.Mock.Atomicity
import Provision.Proofs.Dict
import Provision.Proofs.SecretLayout
import Provision.Proofs.Client.Turns
import Provision.Proofs.Client.TokenCache
import Provision.Proofs.Unsigned
import Provision.Proofs.Settings
import Provision.Proofs.Json.Substitution
import Provision.Proofs.NumberText
import Provision.Proofs.Grouping
