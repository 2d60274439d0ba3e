import DeclGraph.Main
import DeclGraph.Syntax.Printer
import DeclGraph.Proofs.Graph.Mutation
import DeclGraph.Proofs.Graph.Construction
import DeclGraph.Proofs.Graph.Membership
import DeclGraph.Proofs.Graph.Nesting
import DeclGraph.Proofs.Graph.Renewal
import DeclGraph.Proofs.Import.Annotation
import DeclGraph.Proofs.Import.Redeclaration
import DeclGraph.Proofs.Import.Shape
import DeclGraph.Proofs.Import.Duplicates
import DeclGraph.Proofs.Import.Facade
import DeclGraph.Proofs.Import.Meaning
import DeclGraph.Proofs.Import.Isolation
import DeclGraph.Proofs.Import.Skeleton
import DeclGraph.Proofs.Syntax.RoundTrip
import DeclGraph.Proofs.Invariance
import DeclGraph.Proofs.Graph.Seclusion
import DeclGraph.Proofs.Import.Seclusion
import DeclGraph.Proofs.Import.Constancy
import DeclGraph.Proofs.Graph.Arrivals
import DeclGraph.Proofs.Import.Bookkeeping
import DeclGraph.Proofs.Graph.Placeholders
import DeclGraph.Proofs.Import.Forcing
import DeclGraph.Proofs.Graph.Removal
import DeclGraph.Proofs.Graph.Calls
import DeclGraph.Proofs.Graph.Takeover
import DeclGraph.Proofs.Graph.Atomicity
import DeclGraph.Proofs.Import.BuiltIns
import DeclGraph.Proofs.Import.Traits
import DeclGraph.Proofs.Import.Addition
import DeclGraph.Proofs.Import.Stability
import DeclGraph.Proofs.Import.Supersession
import DeclGraph.Proofs.Import.Traces
import DeclGraph.Proofs.Import.Vestiges
import DeclGraph.Proofs.Import.Spelling
import DeclGraph.Proofs.Import.Positions
import DeclGraph.Proofs.Import.BareEdges
import DeclGraph.Proofs.Import.Protocol
import DeclGraph.Proofs.Syntax.Decoration
import DeclGraph.Proofs.Syntax.Attachment
import DeclGraph.Proofs.Syntax.Comments
import DeclGraph.Proofs.Import.Commutation
import DeclGraph.Proofs.Import.Listing
import DeclGraph.Proofs.Graph.Transparency
import DeclGraph.Proofs.Import.Packages
