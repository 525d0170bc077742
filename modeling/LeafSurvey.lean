import LeafSurvey.Main
import LeafSurvey.Proofs.Passes
import LeafSurvey.Proofs.Sessions
import LeafSurvey.Proofs.Parity
import LeafSurvey.Proofs.Reordering
import LeafSurvey.Proofs.Noninterference
import LeafSurvey.Proofs.SchemaRows
import LeafSurvey.Proofs.Rereading
import LeafSurvey.Proofs.Commands
import LeafSurvey.Proofs.Growth
import LeafSurvey.Proofs.Tails
import LeafSurvey.Proofs.Outputs
import LeafSurvey.Proofs.Usability
import LeafSurvey.Proofs.Histories
import LeafSurvey.Proofs.Partition
import LeafSurvey.Proofs.FieldOrder
import LeafSurvey.Proofs.Splitting
import LeafSurvey.Proofs.Positions
import LeafSurvey.Proofs.Breaks
import LeafSurvey.Proofs.Nesting
import LeafSurvey.Proofs.Overriding
import LeafSurvey.Proofs.Rekeying
import LeafSurvey.Proofs.Tallies
import LeafSurvey.Proofs.DirectoryTrees
import LeafSurvey.Proofs.NumberLiterals
import LeafSurvey.Proofs.ExactNumbers
import LeafSurvey.Proofs.SettingsFaults
import LeafSurvey.Proofs.SetOrders
