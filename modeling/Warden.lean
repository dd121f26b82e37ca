import Warden.Service
import Warden.Options.Document
import Warden.Predicate.Stock
import Warden.Proofs.Decision
import Warden.Proofs.Rule.Calls
import Warden.Proofs.Rule.Truth
import Warden.Proofs.Attachment
import Warden.Proofs.Capability
import Warden.Proofs.Http.Mediation
import Warden.Proofs.Http.Disclosure
import Warden.Proofs.Claim
import Warden.Proofs.Covering
import Warden.Proofs.Construction
import Warden.Proofs.Privileges
import Warden.Proofs.Grammar
import Warden.Proofs.Grammar.Patterns
import Warden.Proofs.Claim.Reading
import Warden.Proofs.Views
import Warden.Proofs.Requirements
import Warden.Proofs.Options.ReadBack
import Warden.Proofs.Service.Access
import Warden.Proofs.Rule.Algebra
import Warden.Proofs.Json.Ordered
import Warden.Proofs.Path
import Warden.Proofs.Json.Plain
import Warden.Proofs.Json.Texts
import Warden.Proofs.Options.Forms
import Warden.Proofs.Path.Composed
import Warden.Proofs.Covering.Widened
import Warden.Proofs.Covering.Places
import Warden.Proofs.Options.Checked
import Warden.Proofs.Service.Account
import Warden.Proofs.Rule.Unambiguous
import Warden.Proofs.Service.Disclosure
