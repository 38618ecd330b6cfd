import Delegation.Acl
import Delegation.Aggregation.Report
import Delegation.Codec.Cbor.Form
import Delegation.Codec.Json.Form
import Delegation.Document.Acl
import Delegation.Document.Definition
import Delegation.Document.Rights
import Delegation.Document.Serial
import Delegation.Engine.Mutation
import Delegation.Proofs.Answering
import Delegation.Proofs.Authority
import Delegation.Proofs.Building
import Delegation.Proofs.Cataloging
import Delegation.Proofs.Cbor.Reads
import Delegation.Proofs.Cbor.RoundTrip
import Delegation.Proofs.Clearance
import Delegation.Proofs.Collecting
import Delegation.Proofs.Comparing
import Delegation.Proofs.Condition
import Delegation.Proofs.Decision
import Delegation.Proofs.Defining
import Delegation.Proofs.Document.Acl
import Delegation.Proofs.Document.Canonical
import Delegation.Proofs.Document.Definition
import Delegation.Proofs.Document.Lenience
import Delegation.Proofs.Document.Rights
import Delegation.Proofs.Document.RoundTrip
import Delegation.Proofs.Document.Serial
import Delegation.Proofs.Eligibility
import Delegation.Proofs.Expansion
import Delegation.Proofs.Failure
import Delegation.Proofs.Filing
import Delegation.Proofs.Finding
import Delegation.Proofs.GrantMap
import Delegation.Proofs.Holder
import Delegation.Proofs.Insertion
import Delegation.Proofs.Interchange
import Delegation.Proofs.Isolation
import Delegation.Proofs.Joining
import Delegation.Proofs.Json.Grammar
import Delegation.Proofs.Json.RoundTrip
import Delegation.Proofs.Last
import Delegation.Proofs.Ledger
import Delegation.Proofs.Listing
import Delegation.Proofs.Lookup
import Delegation.Proofs.NameList
import Delegation.Proofs.Naming
import Delegation.Proofs.Outcome
import Delegation.Proofs.Principal
import Delegation.Proofs.Question
import Delegation.Proofs.Refinement
import Delegation.Proofs.Report
import Delegation.Proofs.Request
import Delegation.Proofs.Revocability
import Delegation.Proofs.SameRights
import Delegation.Proofs.Session
import Delegation.Proofs.Spelling
import Delegation.Proofs.Standing
import Delegation.Proofs.Steps
import Delegation.Proofs.Table
import Delegation.Proofs.TypeRights
import Delegation.Rehearsal
import Delegation.Store.Ledger
import Delegation.Store.Table
