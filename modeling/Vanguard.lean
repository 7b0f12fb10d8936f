import Vanguard.Proofs.Conservation
import Vanguard.Proofs.Accounts
import Vanguard.Proofs.StateMachine
import Vanguard.Proofs.RiskGate
import Vanguard.Proofs.Collateral
import Vanguard.Proofs.Settlement
import Vanguard.Proofs.Acknowledgement
import Vanguard.Proofs.Delivery
import Vanguard.Proofs.Forgery
import Vanguard.Proofs.WebhookPaths
import Vanguard.Proofs.FullPayment
import Vanguard.Proofs.Atomicity
import Vanguard.Proofs.Submission
import Vanguard.Proofs.DueDate
import Vanguard.Proofs.Replay
import Vanguard.Proofs.ReadOrder
import Vanguard.Proofs.LiveAdvances
import Vanguard.Proofs.Tenancy
import Vanguard.Proofs.OneExecution
import Vanguard.Proofs.RiskCascade
import Vanguard.Proofs.RiskScores
import Vanguard.Proofs.CachedResponse
import Vanguard.Proofs.Retries
import Vanguard.Proofs.KeyIsolation
import Vanguard.Proofs.KeyRaces
import Vanguard.Proofs.KeyExpiry
import Vanguard.Proofs.Connections
import Vanguard.Proofs.Registration
import Vanguard.Proofs.Reconciliation
import Vanguard.Proofs.Redelivery
import Vanguard.Proofs.Expiry
import Vanguard.Proofs.Schemas
import Vanguard.Proofs.ErrorAnswers
import Vanguard.Proofs.Locks
import Vanguard.Proofs.Constraints
import Vanguard.Proofs.AuditTrail
import Vanguard.Proofs.Jobs
import Vanguard.Proofs.Answers
import Vanguard.Proofs.Credentials
import Vanguard.Proofs.Receipts
import Vanguard.Proofs.InvoiceHistory
