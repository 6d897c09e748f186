import SeriesQuery.Main
import SeriesQuery.Proofs.Condition.Places
import SeriesQuery.Proofs.Duration.Canonical
import SeriesQuery.Proofs.Query.Injective
import SeriesQuery.Proofs.WhereClause.Section
import SeriesQuery.Proofs.Draft.ConfiguredPolicy
import SeriesQuery.Proofs.Statement.Gaps
import SeriesQuery.Proofs.Fragment.Frames
import SeriesQuery.Proofs.Draft.Holes
import SeriesQuery.Proofs.Statement.Assembly
import SeriesQuery.Proofs.CommandLine.Build
import SeriesQuery.Proofs.Json.Coverage
import SeriesQuery.Proofs.Json.MemberOrder
import SeriesQuery.Proofs.Fragment.Names
import SeriesQuery.Proofs.Draft.UnknownKeys
import SeriesQuery.Proofs.Json.Batches
import SeriesQuery.Proofs.Json.UnknownKeys
import SeriesQuery.Proofs.Floating.Overflow
import SeriesQuery.Proofs.Floating.Spelling
import SeriesQuery.Proofs.Floating.Printed
import SeriesQuery.Proofs.Statement.Rendering
import SeriesQuery.Proofs.Fill
import SeriesQuery.Proofs.Draft.Conditions
import SeriesQuery.Proofs.Draft.Steps
import SeriesQuery.Proofs.Draft.FirstFailure
import SeriesQuery.Proofs.Duration.Shortest
import SeriesQuery.Proofs.Draft.KeysShown
import SeriesQuery.Proofs.Draft.Spelling
import SeriesQuery.Proofs.Draft.TermText
import SeriesQuery.Proofs.Draft.Integers
import SeriesQuery.Proofs.Draft.LargeIntegers
import SeriesQuery.Proofs.Draft.Times
import SeriesQuery.Proofs.Draft.Functions
import SeriesQuery.Proofs.CommandLine.Durations
import SeriesQuery.Proofs.CommandLine.Lines
