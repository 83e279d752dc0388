import CommitRisk.Main
import CommitRisk.Proofs.Leakage
import CommitRisk.Proofs.Shares
import CommitRisk.Proofs.WrittenTables
import CommitRisk.Proofs.Batches
import CommitRisk.Proofs.Sheets
import CommitRisk.Proofs.CutLayouts
import CommitRisk.Proofs.Stages
import CommitRisk.Proofs.Failures
import CommitRisk.Proofs.KeptTables
import CommitRisk.Proofs.Statuses
import CommitRisk.Proofs.RowCounts
import CommitRisk.Proofs.SavedModels
import CommitRisk.Proofs.LeftTables
import CommitRisk.Proofs.NewestRows
import CommitRisk.Proofs.Regrouping
import CommitRisk.Proofs.Predictions
import CommitRisk.Proofs.Windows
import CommitRisk.Proofs.Parts
import CommitRisk.Proofs.SoleDimension
import CommitRisk.Proofs.Backends
import CommitRisk.Proofs.ColumnNames
import CommitRisk.Proofs.FittedForests
import CommitRisk.Proofs.Votes
import CommitRisk.Proofs.WeightedAverages
import CommitRisk.Proofs.MedianBounds
import CommitRisk.Proofs.OpenQuotes
import CommitRisk.Proofs.Finiteness
import CommitRisk.Proofs.ShortestDecimals
import CommitRisk.Proofs.PrintedNumerals
import CommitRisk.Proofs.QuantileTables
import CommitRisk.Proofs.JsonTokens
import CommitRisk.Proofs.JsonTexts
import CommitRisk.Proofs.Payloads
import CommitRisk.Proofs.RunKeys
import CommitRisk.Proofs.ParameterTexts
