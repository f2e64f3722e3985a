import ChartStream.Registry
import ChartStream.Portcheck
import ChartStream.Config.Encode
import ChartStream.Output.Writer
import ChartStream.Json.Writer
import ChartStream.FileTree
import ChartStream.Main
import ChartStream.Json.Reader
import ChartStream.Proofs.CatalogStream
import ChartStream.Proofs.WriterSchedule
import ChartStream.Proofs.SharedStream
import ChartStream.Proofs.WriterShutdown
import ChartStream.Proofs.Obsolescence
import ChartStream.Proofs.DeclarationText
import ChartStream.Proofs.DeclaredLines
import ChartStream.Proofs.WireIds
import ChartStream.Proofs.GroupIntervals
import ChartStream.Proofs.RunSteps
import ChartStream.Proofs.NextRun
import ChartStream.Proofs.CycleErrors
import ChartStream.Proofs.Staleness
import ChartStream.Proofs.VariableValues
import ChartStream.Proofs.Retirement
import ChartStream.Proofs.SampleAgreement
import ChartStream.Proofs.ChartPlaces
import ChartStream.Proofs.LayoutCreation
import ChartStream.Proofs.RegistrySteps
import ChartStream.Proofs.RegistryAccount
import ChartStream.Proofs.JobStates
import ChartStream.Proofs.PreliminaryCheck
import ChartStream.Proofs.RegistrySpawn
import ChartStream.Proofs.RegistryBreakdowns
import ChartStream.Proofs.SettingsCheck
import ChartStream.Proofs.References
import ChartStream.Proofs.FlushBarrier
import ChartStream.Proofs.PortcheckCycles
import ChartStream.Proofs.SampleIntegers
import ChartStream.Proofs.ChartSoundness
import ChartStream.Proofs.DurationText
import ChartStream.Proofs.SettingsReadBack
import ChartStream.Proofs.LoadedSettings
