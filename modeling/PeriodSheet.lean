import PeriodSheet.CommandLine.FileTree
import PeriodSheet.Formula.Outline
import PeriodSheet.Main
import PeriodSheet.Proofs.CarryConditions
import PeriodSheet.Proofs.CarryLog
import PeriodSheet.Proofs.CommandLine.WriteBack
import PeriodSheet.Proofs.Comparison
import PeriodSheet.Proofs.Completion
import PeriodSheet.Proofs.Decimal.Spellings
import PeriodSheet.Proofs.DefinitionOrder
import PeriodSheet.Proofs.Dependency.Cycles
import PeriodSheet.Proofs.DerivedValues
import PeriodSheet.Proofs.Destination
import PeriodSheet.Proofs.Formula.Exactness
import PeriodSheet.Proofs.Formula.FieldReference
import PeriodSheet.Proofs.Formula.Height
import PeriodSheet.Proofs.Formula.Numbers
import PeriodSheet.Proofs.Formula.Positions
import PeriodSheet.Proofs.Formula.Sources
import PeriodSheet.Proofs.InertNames
import PeriodSheet.Proofs.Layout.Standard
import PeriodSheet.Proofs.ManualInput
import PeriodSheet.Proofs.OpenedEntries
import PeriodSheet.Proofs.OrderingRules
import PeriodSheet.Proofs.PrevailingRule
import PeriodSheet.Proofs.Receiving
import PeriodSheet.Proofs.RequiredFields
import PeriodSheet.Proofs.RunInput
import PeriodSheet.Proofs.Soundness
import PeriodSheet.Proofs.SplitRange
import PeriodSheet.Proofs.StoreRecompute
import PeriodSheet.Proofs.StoredData
import PeriodSheet.Proofs.Totals
import PeriodSheet.Proofs.ValueText
import PeriodSheet.Proofs.WellFormed
