import ResourceTemplate.Expander.Expand
import ResourceTemplate.Expr.Standalone
import ResourceTemplate.Options.Reader
import ResourceTemplate.Proofs.Catalog.Arithmetic
import ResourceTemplate.Proofs.Catalog.Collections
import ResourceTemplate.Proofs.Catalog.Format
import ResourceTemplate.Proofs.Catalog.Identifiers
import ResourceTemplate.Proofs.Catalog.Kinds
import ResourceTemplate.Proofs.Catalog.RoundTrip
import ResourceTemplate.Proofs.Catalog.Slices
import ResourceTemplate.Proofs.Deployment.Caching
import ResourceTemplate.Proofs.Deployment.Evaluators
import ResourceTemplate.Proofs.Deployment.Hosts
import ResourceTemplate.Proofs.Deployment.Pointers
import ResourceTemplate.Proofs.Deployment.Recasing
import ResourceTemplate.Proofs.Deployment.Termination
import ResourceTemplate.Proofs.Expander.Alike
import ResourceTemplate.Proofs.Expander.Atomicity
import ResourceTemplate.Proofs.Expander.Bodies
import ResourceTemplate.Proofs.Expander.Concealment
import ResourceTemplate.Proofs.Expander.Conveyance
import ResourceTemplate.Proofs.Expander.Dependents
import ResourceTemplate.Proofs.Expander.Depth
import ResourceTemplate.Proofs.Expander.Identities
import ResourceTemplate.Proofs.Expander.Issuing
import ResourceTemplate.Proofs.Expander.Iteration
import ResourceTemplate.Proofs.Expander.Known
import ResourceTemplate.Proofs.Expander.Matching
import ResourceTemplate.Proofs.Expander.NestedScope
import ResourceTemplate.Proofs.Expander.Outputs
import ResourceTemplate.Proofs.Expander.Reports
import ResourceTemplate.Proofs.Expander.SinglePass
import ResourceTemplate.Proofs.Expander.Stall
import ResourceTemplate.Proofs.Expander.Types
import ResourceTemplate.Proofs.Expr.Placeholders
import ResourceTemplate.Proofs.Expr.Renaming
import ResourceTemplate.Proofs.Expr.Sorting
import ResourceTemplate.Proofs.Expr.Spans
import ResourceTemplate.Proofs.Expr.Unambiguity
import ResourceTemplate.Proofs.Order.Circles
import ResourceTemplate.Proofs.Policy
import ResourceTemplate.Proofs.Redaction.Loading
import ResourceTemplate.Proofs.Redaction.Topmost
import ResourceTemplate.Proofs.ResourceId
import ResourceTemplate.Proofs.Symbols.Trace
import ResourceTemplate.Proofs.Template.Chains
import ResourceTemplate.Proofs.Template.Splicing
