import InteropGraph.Main
import InteropGraph.Command.Files
import InteropGraph.Source.Drafting
import InteropGraph.Proofs.Lists
import InteropGraph.Proofs.WrittenUnits
import InteropGraph.Proofs.Releases
import InteropGraph.Proofs.Constant
import InteropGraph.Proofs.BridgeNames
import InteropGraph.Proofs.RenameForms
import InteropGraph.Proofs.DroppedLabels
import InteropGraph.Proofs.CommonPrefix
import InteropGraph.Proofs.DistinctTokens
import InteropGraph.Proofs.NormalizedTokens
import InteropGraph.Proofs.ConstructorStart
import InteropGraph.Proofs.Assembly.Memory
import InteropGraph.Proofs.Assembly.Lockstep
import InteropGraph.Proofs.Assembly.Effort
import InteropGraph.Proofs.Assembly.Origins
import InteropGraph.Proofs.Assembly.Identity
import InteropGraph.Proofs.Assembly.Blame
import InteropGraph.Proofs.Assembly.Causes
import InteropGraph.Proofs.Assembly.Aftermath
import InteropGraph.Proofs.Assembly.TypeArguments
import InteropGraph.Proofs.Assembly.Flags
import InteropGraph.Proofs.SharedTypes
import InteropGraph.Proofs.Conformance
import InteropGraph.Proofs.Pass.Retains
import InteropGraph.Proofs.ReservedNames
import InteropGraph.Proofs.FoldedCategories
import InteropGraph.Proofs.RedundantMembers
import InteropGraph.Proofs.InheritedProperties
import InteropGraph.Proofs.CleanedMembers
import InteropGraph.Proofs.AlignedAccessors
import InteropGraph.Proofs.ShadowedMethods
import InteropGraph.Proofs.Overloads
import InteropGraph.Proofs.RankedNames
import InteropGraph.Proofs.Pipeline
import InteropGraph.Proofs.Presented
import InteropGraph.Proofs.MemberLists
import InteropGraph.Proofs.DumpedNodes
