import QueryStencil.Decimal.Layout
import QueryStencil.Decimal.Numeral
import QueryStencil.Engine.Filling
import QueryStencil.Kind.Builtin
import QueryStencil.Registry.Basic
import QueryStencil.Saved.Sync
import QueryStencil.Template.Placeholder
import QueryStencil.Workspace
import QueryStencil.Proofs.Template.Balance
import QueryStencil.Proofs.Template.Interleave
import QueryStencil.Proofs.Template.Unescape
import QueryStencil.Proofs.Template.OnePass
import QueryStencil.Proofs.Sql.Lexer
import QueryStencil.Proofs.Value.NumberToken
import QueryStencil.Proofs.Kind.Interchange
import QueryStencil.Proofs.Engine.Reading
import QueryStencil.Proofs.Engine.Delimiters
import QueryStencil.Proofs.Engine.Unpaired
import QueryStencil.Proofs.Engine.Names
import QueryStencil.Proofs.Engine.LeftToRight
import QueryStencil.Proofs.Engine.Noninterference
import QueryStencil.Proofs.Saved.Sync
import QueryStencil.Proofs.Engine.Concat
import QueryStencil.Proofs.Engine.Escapes
import QueryStencil.Proofs.Template.Printing
import QueryStencil.Proofs.Engine.Printing
import QueryStencil.Proofs.Text.Trim
import QueryStencil.Proofs.Template.Field
import QueryStencil.Proofs.Template.Recast
import QueryStencil.Proofs.Engine.Said
import QueryStencil.Proofs.Engine.Canonical
import QueryStencil.Proofs.Engine.Fallback
import QueryStencil.Proofs.Saved.Edits
import QueryStencil.Proofs.Saved.Migration
import QueryStencil.Proofs.Registry.Entries
import QueryStencil.Proofs.Registry.History
import QueryStencil.Proofs.Registry.Run
import QueryStencil.Proofs.Registry.Preparation
import QueryStencil.Proofs.Workspace
import QueryStencil.Proofs.Sql.LiteralList
import QueryStencil.Proofs.Kind.Tags
import QueryStencil.Proofs.Value.LeadingNumber
import QueryStencil.Proofs.Engine.Integers
import QueryStencil.Proofs.Engine.Places
import QueryStencil.Proofs.Engine.NumberPlaces
import QueryStencil.Proofs.Saved.StoredForm
import QueryStencil.Proofs.Engine.Presence
import QueryStencil.Proofs.Engine.Reach
