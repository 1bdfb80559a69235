import ComponentPages.Component.Read
import ComponentPages.Load
import ComponentPages.Value.Read
import ComponentPages.Proofs.Value.Markup
import ComponentPages.Proofs.Template.Contents
import ComponentPages.Proofs.Template.Piping
import ComponentPages.Proofs.Document.Assembly
import ComponentPages.Proofs.Helper.Arithmetic
import ComponentPages.Proofs.Shell.Framing
import ComponentPages.Proofs.Template.Trimming
import ComponentPages.Proofs.Template.Comparison
import ComponentPages.Proofs.Session.Course
import ComponentPages.Proofs.Registry.Reachable
import ComponentPages.Proofs.Session.Isolation
import ComponentPages.Proofs.Render.Fragment
import ComponentPages.Proofs.Render.Escaping
import ComponentPages.Proofs.Render.Page
import ComponentPages.Proofs.Session.Restoration
import ComponentPages.Proofs.Registry.History
import ComponentPages.Proofs.Registry.Names
import ComponentPages.Proofs.Template.Actions
import ComponentPages.Proofs.Markup.Masking
import ComponentPages.Proofs.Markup.Unmasking
import ComponentPages.Proofs.Markup.Analysis
import ComponentPages.Proofs.Markup.Exchange
import ComponentPages.Proofs.Markup.Rooted
import ComponentPages.Proofs.Markup.Restoring
import ComponentPages.Proofs.Markup.RootKept
import ComponentPages.Proofs.Markup.Forest
import ComponentPages.Proofs.Markup.Injection
import ComponentPages.Proofs.Markup.ScopeClass
import ComponentPages.Proofs.Markup.LocalEdit
import ComponentPages.Proofs.Markup.RootClass
import ComponentPages.Proofs.Markup.Pieces
import ComponentPages.Proofs.Registry.Scoping
import ComponentPages.Proofs.Template.Grammar
import ComponentPages.Proofs.Template.Parsing
import ComponentPages.Proofs.Template.Writing
import ComponentPages.Proofs.Template.Printing
import ComponentPages.Proofs.Style.Sheets
import ComponentPages.Proofs.Style.Scoping
import ComponentPages.Proofs.Style.Balance
import ComponentPages.Proofs.Style.Joining
import ComponentPages.Proofs.Template.Affixes
import ComponentPages.Proofs.Template.Chaining
import ComponentPages.Proofs.Markup.Wrapping
import ComponentPages.Proofs.Render.Isolated
import ComponentPages.Proofs.Template.Congruence
import ComponentPages.Proofs.Template.Accord
import ComponentPages.Proofs.Session.Accord
import ComponentPages.Proofs.Session.Recursion
import ComponentPages.Proofs.Render.Agreement
import ComponentPages.Proofs.Render.Limit
import ComponentPages.Proofs.Render.Dependence
import ComponentPages.Proofs.Registry.Loading
import ComponentPages.Proofs.Template.Quoting
import ComponentPages.Proofs.Text.Cut
