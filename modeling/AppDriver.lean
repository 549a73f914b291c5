import AppDriver.Main
import AppDriver.Document.Yaml.Printer
import AppDriver.Driver.Execution
import AppDriver.Facts.Normal
import AppDriver.StandIn.Operation
import AppDriver.Proofs.CallBlocks
import AppDriver.Proofs.Coverage
import AppDriver.Proofs.FabricationEffects
import AppDriver.Proofs.FabricationRuns
import AppDriver.Proofs.FabricationInduction
import AppDriver.Proofs.RegistryGrowth
import AppDriver.Proofs.Enrolment
import AppDriver.Proofs.HandleStability
import AppDriver.Proofs.CanonicalOrder
import AppDriver.Proofs.LinearExtensions
import AppDriver.Proofs.PlacedOverrides
import AppDriver.Proofs.LifecycleOrder
import AppDriver.Proofs.SettledArguments
import AppDriver.Proofs.DeclaredArguments
import AppDriver.Proofs.Exposures
import AppDriver.Proofs.ComponentInstances
import AppDriver.Proofs.ServiceAliases
import AppDriver.Proofs.LayoutDispatch
import AppDriver.Proofs.SharedObjects
import AppDriver.Proofs.SubstitutedTypes
import AppDriver.Proofs.RegisteredViews
import AppDriver.Proofs.HandlerViews
import AppDriver.Proofs.CappedTuples
import AppDriver.Proofs.Bench
import AppDriver.Proofs.ConstructorWiring
import AppDriver.Proofs.InProgress
import AppDriver.Proofs.Filing
import AppDriver.Proofs.FiledRegistries
import AppDriver.Proofs.CheckedFabrication
import AppDriver.Proofs.CheckedSynthesis
import AppDriver.Proofs.ClosedProcedures
import AppDriver.Proofs.LabelledStores
import AppDriver.Proofs.LabelScopes
import AppDriver.Proofs.FaultIsolation
import AppDriver.Proofs.DefinitionRoundTrip
import AppDriver.Proofs.StringLiterals
import AppDriver.Proofs.LabelTexts
import AppDriver.Proofs.ObjectTypes
import AppDriver.Proofs.ServiceLookups
import AppDriver.Proofs.SourceReading
import AppDriver.Proofs.SourceStatements
import AppDriver.Proofs.LegibleSources
import AppDriver.Proofs.FaithfulSources
import AppDriver.Proofs.TypedArena
import AppDriver.Proofs.StrayStandIns
import AppDriver.Proofs.MemoizedStandIns
import AppDriver.Proofs.TypeSpellings
import AppDriver.Proofs.FactsRoundTrip
import AppDriver.Proofs.StepLookups
import AppDriver.Proofs.CompletedTargets
import AppDriver.Proofs.BuildableTypes
import AppDriver.Proofs.DegradationRecords
import AppDriver.Proofs.LabelHints
import AppDriver.Proofs.LegalLabels
import AppDriver.Proofs.AcceptedDocuments
import AppDriver.Proofs.Findings
import AppDriver.Proofs.DriveOrder
import AppDriver.Proofs.ConfigRoundTrip
import AppDriver.Proofs.ResolvedViews
import AppDriver.Proofs.ComponentViews
import AppDriver.Proofs.DeclaredIdentifiers
import AppDriver.Proofs.GetterChains
