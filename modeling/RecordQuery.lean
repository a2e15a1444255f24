import RecordQuery.Alias
import RecordQuery.Calendar.Date
import RecordQuery.Calendar.Fiscal
import RecordQuery.Calendar.Instant
import RecordQuery.Calendar.Reader
import RecordQuery.Catalog.AttributeType
import RecordQuery.Catalog.Metadata
import RecordQuery.Catalog.Resolve
import RecordQuery.Catalog.Schema
import RecordQuery.Context
import RecordQuery.Decimal.Arithmetic
import RecordQuery.Decimal.Basic
import RecordQuery.Decimal.Reader
import RecordQuery.Document.Grammar
import RecordQuery.Document.Reader
import RecordQuery.Document.Tag
import RecordQuery.Document.Writer
import RecordQuery.Encoding.Basic
import RecordQuery.Encoding.Metadata
import RecordQuery.Encoding.Settings
import RecordQuery.Engine
import RecordQuery.Error
import RecordQuery.Evaluation
import RecordQuery.Hierarchy
import RecordQuery.Index
import RecordQuery.Magnitude
import RecordQuery.Markup.Binding
import RecordQuery.Markup.CharacterData
import RecordQuery.Markup.Element
import RecordQuery.Markup.Event
import RecordQuery.Markup.Name
import RecordQuery.Markup.Reader
import RecordQuery.Markup.Writer
import RecordQuery.Pattern
import RecordQuery.Plan
import RecordQuery.Predicate.Basic
import RecordQuery.Predicate.Compile
import RecordQuery.Predicate.Window
import RecordQuery.Proofs.Calendar.DateTexts
import RecordQuery.Proofs.Calendar.DayNumber
import RecordQuery.Proofs.Calendar.FiscalEdges
import RecordQuery.Proofs.Calendar.FiscalPeriods
import RecordQuery.Proofs.Calendar.FiscalYears
import RecordQuery.Proofs.Calendar.InstantTexts
import RecordQuery.Proofs.Carrying
import RecordQuery.Proofs.Document.Attributes
import RecordQuery.Proofs.Document.Checks
import RecordQuery.Proofs.Document.Contents
import RecordQuery.Proofs.Document.Derivations
import RecordQuery.Proofs.Document.Expressible
import RecordQuery.Proofs.Document.Keywords
import RecordQuery.Proofs.Document.Parts
import RecordQuery.Proofs.Document.Refusals
import RecordQuery.Proofs.Document.RoundTrip
import RecordQuery.Proofs.Document.Transcripts
import RecordQuery.Proofs.Document.Writable
import RecordQuery.Proofs.Hierarchy.Climbing
import RecordQuery.Proofs.Hierarchy.Descending
import RecordQuery.Proofs.Hierarchy.Kinship
import RecordQuery.Proofs.Hierarchy.Steps
import RecordQuery.Proofs.Markup.Documents
import RecordQuery.Proofs.Markup.Escapes
import RecordQuery.Proofs.Markup.Tags
import RecordQuery.Proofs.Outcome
import RecordQuery.Proofs.Plan.Aliases
import RecordQuery.Proofs.Plan.Assignment
import RecordQuery.Proofs.Plan.InPlace
import RecordQuery.Proofs.Plan.Pairing
import RecordQuery.Proofs.Plan.Reassignment
import RecordQuery.Proofs.Plan.Splitting
import RecordQuery.Proofs.Predicate.Alike
import RecordQuery.Proofs.Predicate.Congruence
import RecordQuery.Proofs.Predicate.Connectives
import RecordQuery.Proofs.Predicate.Contrary
import RecordQuery.Proofs.Predicate.EmptyFilters
import RecordQuery.Proofs.Predicate.Numbers
import RecordQuery.Proofs.Predicate.OneOf
import RecordQuery.Proofs.Predicate.Operands
import RecordQuery.Proofs.Predicate.OtherStore
import RecordQuery.Proofs.Predicate.Presence
import RecordQuery.Proofs.Predicate.Reading
import RecordQuery.Proofs.Predicate.Relaxed
import RecordQuery.Proofs.Predicate.Renaming
import RecordQuery.Proofs.Predicate.TextOperands
import RecordQuery.Proofs.Predicate.Transcripts
import RecordQuery.Proofs.Query.Mentions
import RecordQuery.Proofs.Query.Naming
import RecordQuery.Proofs.Query.Revision
import RecordQuery.Proofs.Query.Transcript
import RecordQuery.Proofs.Query.Within
import RecordQuery.Proofs.Record.Merge
import RecordQuery.Proofs.Relation.Aggregation
import RecordQuery.Proofs.Relation.Appearance
import RecordQuery.Proofs.Relation.ColumnMeaning
import RecordQuery.Proofs.Relation.Complement
import RecordQuery.Proofs.Relation.Existential
import RecordQuery.Proofs.Relation.Failures
import RecordQuery.Proofs.Relation.Finding
import RecordQuery.Proofs.Relation.Grouping
import RecordQuery.Proofs.Relation.Likeness
import RecordQuery.Proofs.Relation.Linking
import RecordQuery.Proofs.Relation.NestedLoop
import RecordQuery.Proofs.Relation.NullOrNothing
import RecordQuery.Proofs.Relation.Opposite
import RecordQuery.Proofs.Relation.Overflows
import RecordQuery.Proofs.Relation.OwnAlias
import RecordQuery.Proofs.Relation.Pages
import RecordQuery.Proofs.Relation.PresentRows
import RecordQuery.Proofs.Relation.QueryRows
import RecordQuery.Proofs.Relation.Rerun
import RecordQuery.Proofs.Relation.SemiJoin
import RecordQuery.Proofs.Relation.Showing
import RecordQuery.Proofs.Relation.Sorting
import RecordQuery.Proofs.Relation.Transcripts
import RecordQuery.Proofs.Relation.TwinRows
import RecordQuery.Proofs.Relation.TwinStores
import RecordQuery.Proofs.Relation.Twins
import RecordQuery.Proofs.Store.Histories
import RecordQuery.Proofs.Store.Lookup
import RecordQuery.Proofs.Store.Refinement
import RecordQuery.Proofs.Store.Shelves
import RecordQuery.Proofs.Tally
import RecordQuery.Proofs.Text.Decimals
import RecordQuery.Proofs.Text.Identifiers
import RecordQuery.Proofs.Text.Numerals
import RecordQuery.Proofs.Value.Keys
import RecordQuery.Proofs.Value.OperandTexts
import RecordQuery.Proofs.Value.OptionTexts
import RecordQuery.Proofs.Value.Rationals
import RecordQuery.Query.Column
import RecordQuery.Query.Description
import RecordQuery.Query.Filter
import RecordQuery.Query.Link
import RecordQuery.Query.Operator
import RecordQuery.Record
import RecordQuery.Relation.Aggregate
import RecordQuery.Relation.Basic
import RecordQuery.Relation.Distinct
import RecordQuery.Relation.Join
import RecordQuery.Relation.Project
import RecordQuery.Relation.Sort
import RecordQuery.Store
import RecordQuery.Store.Indexed
import RecordQuery.Text.Blank
import RecordQuery.Text.CaseTable
import RecordQuery.Text.Lowercase
import RecordQuery.Text.Numeral
import RecordQuery.Uuid
import RecordQuery.Value.Basic
import RecordQuery.Value.OptionSet
import RecordQuery.Value.Options
import RecordQuery.Value.Scalar
import RecordQuery.Proofs.Plan.Rearranging
import RecordQuery.Proofs.Predicate.LocalDays
import RecordQuery.Proofs.Relation.Calmness
import RecordQuery.Proofs.Relation.Commuting
import RecordQuery.Proofs.Relation.Reordering
import RecordQuery.Proofs.Relation.Unmatched
import RecordQuery.Proofs.Relation.OuterNull
import RecordQuery.Proofs.Pattern.Elements
import RecordQuery.Proofs.Pattern.Language
import RecordQuery.Proofs.Relation.KeyOrder
import RecordQuery.Proofs.Relation.StableSort
import RecordQuery.Proofs.Relation.JoinLoops
import RecordQuery.Proofs.Calendar.LocalTime
import RecordQuery.Proofs.Calendar.Moves
import RecordQuery.Proofs.Calendar.Turns
import RecordQuery.Proofs.Predicate.CalendarWindows
import RecordQuery.Proofs.Predicate.FiscalSpans
import RecordQuery.Proofs.Predicate.CountedWindows
import RecordQuery.Proofs.Predicate.WindowForms
import RecordQuery.Proofs.Calendar.Words
import RecordQuery.Proofs.Predicate.WindowWords
import RecordQuery.Proofs.Predicate.WindowSafety
import RecordQuery.Proofs.Predicate.FiscalStarts
import RecordQuery.Proofs.Predicate.Passes
import RecordQuery.Proofs.Predicate.CompileSafety
import RecordQuery.Proofs.Predicate.InstantRanges
import RecordQuery.Proofs.Predicate.SingleDays
import RecordQuery.Proofs.Value.KeyEquality
import RecordQuery.Proofs.Relation.WholeSums
import RecordQuery.Proofs.Relation.Extremes
import RecordQuery.Proofs.Relation.Unmerging
import RecordQuery.Proofs.Text.Names
import RecordQuery.Proofs.Plan.HandingOut
import RecordQuery.Proofs.Catalog.Schemas
import RecordQuery.Proofs.Value.Canonical
import RecordQuery.Proofs.Record.SharedAttributes
import RecordQuery.Proofs.Relation.FirstRows
import RecordQuery.Proofs.Document.Names
import RecordQuery.Proofs.Document.Reception
import RecordQuery.Proofs.Document.KeptTexts
import RecordQuery.Proofs.Predicate.ColumnComparisons
import RecordQuery.Proofs.Calendar.PeriodMoves
import RecordQuery.Proofs.Relation.RelaxedFilters
