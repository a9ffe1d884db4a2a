import DatasetGrid.Settings.File
import DatasetGrid.Table.Basic
import DatasetGrid.Proofs.Induction
import DatasetGrid.Proofs.Columns
import DatasetGrid.Proofs.ByteSizes
import DatasetGrid.Proofs.Dispatch
import DatasetGrid.Proofs.TableDispatch
import DatasetGrid.Proofs.Agreement
import DatasetGrid.Proofs.Persistence
import DatasetGrid.Proofs.ByteText
import DatasetGrid.Proofs.Numerals
import DatasetGrid.Proofs.Tokens
import DatasetGrid.Proofs.WellTyped
import DatasetGrid.Proofs.NumberCells
import DatasetGrid.Proofs.EnumNames
import DatasetGrid.Proofs.ScalarRoundTrip
import DatasetGrid.Proofs.Entries
import DatasetGrid.Proofs.RoundTrip
import DatasetGrid.Proofs.Build
import DatasetGrid.Proofs.Schedule
import DatasetGrid.Proofs.Admission
import DatasetGrid.Proofs.Alignment
import DatasetGrid.Proofs.Rendering
import DatasetGrid.Proofs.SteadyText
import DatasetGrid.Proofs.MemoryRows
import DatasetGrid.Proofs.CellEdits
import DatasetGrid.Proofs.ConverterCalls
import DatasetGrid.Proofs.Handles
import DatasetGrid.Proofs.ReleasedTypes
import DatasetGrid.Proofs.CommutingEdits
import DatasetGrid.Proofs.ColumnGroups
import DatasetGrid.Proofs.IntegerEdits
import DatasetGrid.Proofs.SignExtension
import DatasetGrid.Proofs.WordForms
import DatasetGrid.Proofs.EnumEntry
import DatasetGrid.Proofs.AddressEdits
import DatasetGrid.Proofs.LeafPaths
import DatasetGrid.Proofs.StoredText
import DatasetGrid.Proofs.Rounding
import DatasetGrid.Proofs.FloatNumerals
import DatasetGrid.Proofs.FloatEntry
import DatasetGrid.Proofs.DisplayOptions
import DatasetGrid.Proofs.PackedBytes
import DatasetGrid.Proofs.TokenCuts
import DatasetGrid.Proofs.Documents
import DatasetGrid.Proofs.SettingsText
