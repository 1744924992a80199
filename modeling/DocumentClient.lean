import DocumentClient.Batch.Basic
import DocumentClient.Batch.Session
import DocumentClient.Calendar
import DocumentClient.Catalog.Basic
import DocumentClient.Catalog.PropertyType
import DocumentClient.Command.Classification
import DocumentClient.Command.Script
import DocumentClient.Config.Basic
import DocumentClient.Config.Params
import DocumentClient.Config.Url
import DocumentClient.Connection
import DocumentClient.Driver
import DocumentClient.Engine.Basic
import DocumentClient.Engine.Rows
import DocumentClient.Engine.Scripted
import DocumentClient.Error
import DocumentClient.Json.Basic
import DocumentClient.Json.Draft
import DocumentClient.Json.Printer
import DocumentClient.Memory.Assignment
import DocumentClient.Memory.Engine
import DocumentClient.Memory.Statement
import DocumentClient.Memory.Store
import DocumentClient.Metadata.Basic
import DocumentClient.Metadata.Like
import DocumentClient.Metadata.Listing
import DocumentClient.Number.Double
import DocumentClient.Number.Reading
import DocumentClient.Number.Shortest
import DocumentClient.Proofs.Runs
import DocumentClient.Proofs.ScriptLines
import DocumentClient.Proofs.SessionLifecycle
import DocumentClient.Proofs.Trimming
import DocumentClient.QueryResult
import DocumentClient.Record.Basic
import DocumentClient.Record.Identity
import DocumentClient.Settings
import DocumentClient.SettingsFile
import DocumentClient.Text.Blank
import DocumentClient.Text.Casing
import DocumentClient.Text.Expression
import DocumentClient.Text.Integer
import DocumentClient.Text.Keyword
import DocumentClient.Text.Splitting
import DocumentClient.Text.Word
import DocumentClient.Toml.Basic
import DocumentClient.Toml.Document
import DocumentClient.Toml.Reader
import DocumentClient.Toml.Scalar
import DocumentClient.Value
import DocumentClient.Wire.Form
import DocumentClient.Wire.Record
import DocumentClient.Wire.Schema
import DocumentClient.Proofs.CommandLedger
import DocumentClient.Proofs.CommitAtomicity
import DocumentClient.Proofs.ScriptFraming
import DocumentClient.Proofs.CommandLines
import DocumentClient.Proofs.CommandReaders
import DocumentClient.Proofs.ScriptCounts
import DocumentClient.Proofs.Expressions
import DocumentClient.Proofs.FailedCommands
import DocumentClient.Proofs.TouchedRecords
import DocumentClient.Proofs.StatementTexts
import DocumentClient.Proofs.Rejections
import DocumentClient.Proofs.SchemaStability
import DocumentClient.Proofs.DatabaseRuns
import DocumentClient.Proofs.CatalogCoherence
import DocumentClient.Proofs.UniqueIndexes
import DocumentClient.Proofs.RecordIdentity
import DocumentClient.Proofs.AlikeConnections
import DocumentClient.Proofs.SharedEngine
import DocumentClient.Proofs.HeldSessions
import DocumentClient.Proofs.ClosedConnections
import DocumentClient.Proofs.UrlRebuilding
import DocumentClient.Proofs.CommandWords
import DocumentClient.Proofs.LikePatterns
import DocumentClient.Proofs.Tabulation
import DocumentClient.Proofs.TableNames
import DocumentClient.Proofs.IndexListings
import DocumentClient.Proofs.IdentityTexts
import DocumentClient.Proofs.ValueEquality
import DocumentClient.Proofs.RecordTexts
import DocumentClient.Proofs.AssignmentLists
