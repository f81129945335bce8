import DocStore.Double
import DocStore.Value
import DocStore.Value.WellFormed
import DocStore.Value.Path
import DocStore.Value.Order
import DocStore.Error
import DocStore.Filter
import DocStore.Filter.Match
import DocStore.Update
import DocStore.Update.WellFormed
import DocStore.Table
import DocStore.Query
import DocStore.Backend
import DocStore.Memory.Shelf
import DocStore.Memory
import DocStore.Typed
import DocStore.Typed.Item
import DocStore.Consumer
import DocStore.Json
import DocStore.Page
import DocStore.Page.Reading
import DocStore.Collection
import DocStore.Collection.Paginate
import DocStore.Collection.Walk
import DocStore.Script
import DocStore.Calendar
import DocStore.Instant
import DocStore.Instant.Text
import DocStore.Account.User
import DocStore.Account.UserDocument
import DocStore.Account.Repository
import DocStore.Account.InTable
import DocStore.Account.InCollection
import DocStore.Mongo.Query
import DocStore.Mongo.Request
import DocStore.Mongo.Failure
import DocStore.Mongo.Config
import DocStore.Proofs.TableLaws
import DocStore.Proofs.Identifiers
import DocStore.Proofs.ShelfInvariants
import DocStore.Proofs.Convention
import DocStore.Proofs.MassUpdates
import DocStore.Proofs.UnidentifiedDocuments
import DocStore.Proofs.IdScans
import DocStore.Proofs.CursorPages
import DocStore.Proofs.InterruptedWalk
import DocStore.Proofs.UserDocuments
import DocStore.Proofs.RepositoryRuns
import DocStore.Proofs.OffsetPages
import DocStore.Proofs.Streaming
import DocStore.Proofs.Batches
import DocStore.Proofs.Retries
import DocStore.Proofs.SubjectCreation
import DocStore.Proofs.PageFlow
import DocStore.Proofs.QueryMeaning
import DocStore.Proofs.QueryRefusals
import DocStore.Proofs.Dates
import DocStore.Proofs.TimeTexts
import DocStore.Proofs.UserRoundTrip
import DocStore.Proofs.MatchCounts
import DocStore.Proofs.IndependentWrites
import DocStore.Proofs.WindowSlices
import DocStore.Proofs.NeighbouringPages
import DocStore.Proofs.SortOrder
import DocStore.Proofs.MalformedRecords
import DocStore.Proofs.SingleWrites
import DocStore.Proofs.ScanListings
import DocStore.Proofs.UpdateSteps
import DocStore.Proofs.PositionalUpdates
import DocStore.Proofs.WrittenPaths
import DocStore.Proofs.FieldNames
import DocStore.Proofs.SingleMatches
import DocStore.Proofs.UpsertedDocuments
import DocStore.Proofs.SavedDocuments
import DocStore.Proofs.UserListings
import DocStore.Proofs.FanOut
import DocStore.Proofs.FilterEquality
import DocStore.Proofs.Alternatives
import DocStore.Proofs.TextPatterns
import DocStore.Proofs.SettledSubjects
import DocStore.Proofs.OrderOperators
import DocStore.Proofs.SortComparison
import DocStore.Proofs.Rounding
import DocStore.Proofs.DoubleValues
import DocStore.Proofs.FilterEquivalence
import DocStore.Proofs.IntegerOrder
import DocStore.Proofs.Seeding
import DocStore.Proofs.WindowQueries
