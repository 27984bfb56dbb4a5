import Interpose.Session.Requests
import Interpose.Proofs.Overloads
import Interpose.Proofs.Unscripted
import Interpose.Proofs.Soundness
import Interpose.Proofs.Ambiguity
import Interpose.Proofs.Overrides
import Interpose.Proofs.Constructions
import Interpose.Proofs.Listing
import Interpose.Proofs.Finals
import Interpose.Proofs.Orders
import Interpose.Proofs.Growth
import Interpose.Proofs.Registries
import Interpose.Proofs.Repeats
import Interpose.Proofs.Bypassing
import Interpose.Proofs.HostSides
import Interpose.Proofs.Passing
import Interpose.Proofs.Covering
import Interpose.Proofs.Defaults
import Interpose.Proofs.Sparing
import Interpose.Proofs.Lasting
import Interpose.Proofs.Retries
import Interpose.Proofs.Returning
import Interpose.Proofs.Importing
import Interpose.Proofs.Owning
import Interpose.Proofs.Paths
import Interpose.Proofs.Targets
import Interpose.Proofs.Markers
import Interpose.Proofs.Recalling
import Interpose.Proofs.Representatives
import Interpose.Proofs.Properties
import Interpose.Proofs.Records
import Interpose.Proofs.Forwarding
import Interpose.Proofs.ByName
import Interpose.Proofs.Histories
import Interpose.Proofs.Raising
import Interpose.Proofs.Supertypes
import Interpose.Proofs.Heaps
import Interpose.Proofs.Views
import Interpose.Proofs.Asking
import Interpose.Proofs.Conversions
import Interpose.Proofs.Emissions
import Interpose.Proofs.Disassembly
import Interpose.Proofs.Descriptors
