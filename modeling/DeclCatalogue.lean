import DeclCatalogue.Main
import DeclCatalogue.Proofs.Json.Objects
import DeclCatalogue.Proofs.Node.Strip
import DeclCatalogue.Proofs.Node.Modifier
import DeclCatalogue.Proofs.Walk.Collect
import DeclCatalogue.Proofs.Catalogue.Declarations
import DeclCatalogue.Proofs.Walk.Session
import DeclCatalogue.Proofs.Cst.EachNode
import DeclCatalogue.Proofs.Tree.Conforming
import DeclCatalogue.Proofs.Walk.Alike
import DeclCatalogue.Proofs.Tree.ConformingTree
import DeclCatalogue.Proofs.Walk.Congruence
import DeclCatalogue.Proofs.Node.Parent
import DeclCatalogue.Proofs.Walk.Linked
import DeclCatalogue.Proofs.Node.View
import DeclCatalogue.Proofs.Walk.View
import DeclCatalogue.Proofs.Walk.Safety
import DeclCatalogue.Proofs.Extraction.Statements
import DeclCatalogue.Proofs.Extraction.Safety
import DeclCatalogue.Proofs.Cst.Comments
import DeclCatalogue.Proofs.Tree.Agree
import DeclCatalogue.Proofs.Tree.Comments
import DeclCatalogue.Proofs.Tree.CommentsTree
import DeclCatalogue.Proofs.Extraction.Comments
import DeclCatalogue.Proofs.Extraction.Records
import DeclCatalogue.Proofs.Extraction.DeclaredNodes
import DeclCatalogue.Proofs.Extraction.Declarations
import DeclCatalogue.Proofs.Catalogue.Replay
import DeclCatalogue.Proofs.Node.Blank
import DeclCatalogue.Proofs.Walk.Blank
import DeclCatalogue.Proofs.Walk.Recorded
import DeclCatalogue.Proofs.Walk.SessionCatalogue
import DeclCatalogue.Proofs.Number.Integer
import DeclCatalogue.Proofs.Json.Same
import DeclCatalogue.Proofs.Walk.Sequence
import DeclCatalogue.Proofs.Walk.Reports
import DeclCatalogue.Proofs.Text.Dotted
import DeclCatalogue.Proofs.Extraction.OpensNames
import DeclCatalogue.Proofs.Extraction.Namespaces
import DeclCatalogue.Proofs.Walk.Seen
import DeclCatalogue.Proofs.Walk.PassedOver
import DeclCatalogue.Proofs.Walk.AllOrNothing
import DeclCatalogue.Proofs.Walk.Contexts
import DeclCatalogue.Proofs.Walk.Scopes
import DeclCatalogue.Proofs.Node.NamedKinds
import DeclCatalogue.Proofs.Walk.NamedKinds
import DeclCatalogue.Proofs.Walk.Ways
import DeclCatalogue.Proofs.Catalogue.Document
import DeclCatalogue.Proofs.Catalogue.Counts
import DeclCatalogue.Proofs.CommandLine.Files
import DeclCatalogue.Proofs.Json.Keys
import DeclCatalogue.Proofs.CommandLine.Isolation
import DeclCatalogue.Proofs.Fault
import DeclCatalogue.Proofs.Json.Paths
import DeclCatalogue.Proofs.Node.NormalForm
import DeclCatalogue.Proofs.Node.Links
import DeclCatalogue.Proofs.Walk.Nameless
import DeclCatalogue.Proofs.Walk.TypeContexts
import DeclCatalogue.Proofs.Walk.Imports
import DeclCatalogue.Proofs.Walk.Variables
import DeclCatalogue.Proofs.Extraction.Placement
import DeclCatalogue.Proofs.Extraction.Visits
import DeclCatalogue.Proofs.Tree.TypeName
import DeclCatalogue.Proofs.Extraction.Variables
import DeclCatalogue.Proofs.Extraction.RecordedNames
import DeclCatalogue.Proofs.Text.Numeral
import DeclCatalogue.Proofs.KindTable.Reading
import DeclCatalogue.Proofs.KindTable.Dump
import DeclCatalogue.Proofs.Tree.ExpressionName
import DeclCatalogue.Proofs.Extraction.Exports
import DeclCatalogue.Proofs.Node.KindNames
import DeclCatalogue.Proofs.Walk.Agreement
import DeclCatalogue.Proofs.Walk.KindTables
import DeclCatalogue.Proofs.Walk.Complaints
import DeclCatalogue.Proofs.Walk.Placeholders
import DeclCatalogue.Proofs.Settings.Layers
import DeclCatalogue.Proofs.Settings.Fields
import DeclCatalogue.Proofs.Settings.References
import DeclCatalogue.Proofs.Settings.Precedence
import DeclCatalogue.Proofs.Settings.Environment
import DeclCatalogue.Proofs.Extraction.Grammar
import DeclCatalogue.Proofs.CommandLine.Configuration
import DeclCatalogue.Proofs.Node.Resolution
import DeclCatalogue.Proofs.Cst.Operands
import DeclCatalogue.Proofs.Tree.OperatorTypes
import DeclCatalogue.Proofs.Tree.WellFormed
import DeclCatalogue.Proofs.Cst.Ranges
import DeclCatalogue.Proofs.Tree.Nesting
import DeclCatalogue.Proofs.Tree.NestingTree
import DeclCatalogue.Proofs.CommandLine.Printing
