import PrivilegeStore.Main
import PrivilegeStore.Session
import PrivilegeStore.Proofs.Commit.Allocation
import PrivilegeStore.Proofs.Commit.History
import PrivilegeStore.Proofs.Aggregation.Retention
import PrivilegeStore.Proofs.Aggregation.Agreement
import PrivilegeStore.Proofs.Commit.Events
import PrivilegeStore.Proofs.Commit.Permanence
import PrivilegeStore.Proofs.Commit.Counting
import PrivilegeStore.Proofs.Definition.Members
import PrivilegeStore.Proofs.Definition.Access
import PrivilegeStore.Proofs.Commit.Addition
import PrivilegeStore.Proofs.Aggregation.Eligibility
import PrivilegeStore.Proofs.Commit.Proposal
import PrivilegeStore.Proofs.Commit.Independence
import PrivilegeStore.Proofs.Definition.Alike
import PrivilegeStore.Proofs.Commit.Meaning
import PrivilegeStore.Proofs.Commit.Duplication
import PrivilegeStore.Proofs.Commit.Criterion
import PrivilegeStore.Proofs.Registration.Representation
import PrivilegeStore.Proofs.Bits.Sameness
import PrivilegeStore.Proofs.Commit.Legibility
import PrivilegeStore.Proofs.Commit.Tally
import PrivilegeStore.Proofs.Commit.Correspondence
import PrivilegeStore.Proofs.Commit.Irrelevance
import PrivilegeStore.Proofs.Node.Extensionality
import PrivilegeStore.Proofs.Definition.Relisting
import PrivilegeStore.Proofs.Aggregation.Opening
import PrivilegeStore.Proofs.Commit.Ordering
import PrivilegeStore.Proofs.Aggregation.Cycles
import PrivilegeStore.Proofs.Aggregation.Questions
import PrivilegeStore.Proofs.Aggregation.Precedence
import PrivilegeStore.Proofs.Commit.Renaming
import PrivilegeStore.Proofs.Definition.Discernment
import PrivilegeStore.Proofs.Node.Patching
import PrivilegeStore.Proofs.Registration.Readback
import PrivilegeStore.Proofs.Bits.Codec
import PrivilegeStore.Proofs.Bits.Succession
import PrivilegeStore.Proofs.Bits.Leniency
import PrivilegeStore.Proofs.Report.Verbosity
