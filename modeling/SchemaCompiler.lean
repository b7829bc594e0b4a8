import SchemaCompiler.Binary64
import SchemaCompiler.Binary64.Shortest
import SchemaCompiler.Build.Compile
import SchemaCompiler.Build.Group
import SchemaCompiler.Build.Policy
import SchemaCompiler.Classification
import SchemaCompiler.Config
import SchemaCompiler.Config.Expansion
import SchemaCompiler.Config.Reading
import SchemaCompiler.Database
import SchemaCompiler.Definition
import SchemaCompiler.Description
import SchemaCompiler.Environment
import SchemaCompiler.Error
import SchemaCompiler.Field
import SchemaCompiler.Hook
import SchemaCompiler.Index
import SchemaCompiler.Index.Diff
import SchemaCompiler.Index.Plan
import SchemaCompiler.Index.Store
import SchemaCompiler.Inspection
import SchemaCompiler.Inspection.Unprintable
import SchemaCompiler.Json
import SchemaCompiler.Json.Printer
import SchemaCompiler.Json.Reader
import SchemaCompiler.Logging
import SchemaCompiler.OrderedMap
import SchemaCompiler.Phase
import SchemaCompiler.Row
import SchemaCompiler.Session.Answer
import SchemaCompiler.Session.Construction
import SchemaCompiler.Session.Execution
import SchemaCompiler.Session.Expression
import SchemaCompiler.Session.Script
import SchemaCompiler.Session.State
import SchemaCompiler.Signature
import SchemaCompiler.Table.Admission
import SchemaCompiler.Table.Info
import SchemaCompiler.Table.Operation
import SchemaCompiler.Table.Storage
import SchemaCompiler.Toml
import SchemaCompiler.Toml.Reader
import SchemaCompiler.Toml.Scalar
import SchemaCompiler.Validator
import SchemaCompiler.World
import SchemaCompiler.Proofs.IndexReconciliation
import SchemaCompiler.Proofs.EffectRuns
import SchemaCompiler.Proofs.CacheCoherence
import SchemaCompiler.Proofs.DatabaseSteps
import SchemaCompiler.Proofs.HookRoutines
import SchemaCompiler.Proofs.RowWrites
import SchemaCompiler.Proofs.QuietHooks
import SchemaCompiler.Proofs.RowIds
import SchemaCompiler.Proofs.StoredValues
import SchemaCompiler.Proofs.MemberSorting
import SchemaCompiler.Proofs.DefinitionRuns
import SchemaCompiler.Proofs.Compilation
import SchemaCompiler.Proofs.EarlyRefusals
import SchemaCompiler.Proofs.CompiledDefinitions
import SchemaCompiler.Proofs.BuildTurns
import SchemaCompiler.Proofs.CompilationRuns
import SchemaCompiler.Proofs.GroupBuilds
import SchemaCompiler.Proofs.Redrafting
import SchemaCompiler.Proofs.RepeatedMigrations
import SchemaCompiler.Proofs.Recompilation
import SchemaCompiler.Proofs.GroupIndexes
import SchemaCompiler.Proofs.Rebuilding
import SchemaCompiler.Proofs.LookupCounts
import SchemaCompiler.Proofs.RowCounts
import SchemaCompiler.Proofs.RowAdmission
import SchemaCompiler.Proofs.InsertedRows
import SchemaCompiler.Proofs.RowMerging
import SchemaCompiler.Proofs.CommandRuns
import SchemaCompiler.Proofs.HookTurns
import SchemaCompiler.Proofs.Interruptions
import SchemaCompiler.Proofs.SelectedRows
import SchemaCompiler.Proofs.IndexDiffs
import SchemaCompiler.Proofs.AutomaticKeys
import SchemaCompiler.Proofs.EnvironmentExpansion
import SchemaCompiler.Proofs.ReorderedCompilations
import SchemaCompiler.Proofs.InterruptedDiffs
import SchemaCompiler.Proofs.DrawnPlans
import SchemaCompiler.Proofs.AppliedEnvironments
import SchemaCompiler.Proofs.MixinLockstep
import SchemaCompiler.Proofs.InertMembers
import SchemaCompiler.Proofs.RowAlgebra
import SchemaCompiler.Proofs.ShownRows
