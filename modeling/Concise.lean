import Concise.Main
import Concise.Transformer
import Concise.Proofs.Confluence
import Concise.Proofs.Bindings
import Concise.Proofs.ObjectLiterals
import Concise.Proofs.Shape
import Concise.Proofs.Collecting
import Concise.Proofs.Idempotence
import Concise.Proofs.Ignoring
import Concise.Proofs.Treatments
import Concise.Proofs.Interleaving
import Concise.Proofs.FrontEnds
import Concise.Proofs.Accounts
import Concise.Proofs.Methods
import Concise.Proofs.Plans
import Concise.Proofs.BareNames
import Concise.Proofs.Scanning
import Concise.Proofs.Transitions
import Concise.Proofs.Globs
import Concise.Proofs.Nesting
import Concise.Proofs.HostCounts
