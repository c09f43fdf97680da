import Docsmith.Command.Arguments
import Docsmith.Command.Option
import Docsmith.Command.Session
import Docsmith.Conventions
import Docsmith.Data.Bare
import Docsmith.Data.Decimal
import Docsmith.Data.Decode
import Docsmith.Data.Json
import Docsmith.Data.Plain
import Docsmith.Data.Reading
import Docsmith.Data.Table
import Docsmith.Data.Tag
import Docsmith.Data.Text
import Docsmith.Data.Value
import Docsmith.Data.Yaml
import Docsmith.Data.Yaml.Cursor
import Docsmith.Data.Yaml.Lexer
import Docsmith.Data.Yaml.Node
import Docsmith.Data.Yaml.Property
import Docsmith.Data.Yaml.Scalar
import Docsmith.Data.Yaml.Token
import Docsmith.Description.Annotation
import Docsmith.Description.Constants
import Docsmith.Description.Regions
import Docsmith.Discovery.Catalog
import Docsmith.Discovery.Leaves
import Docsmith.Discovery.Ownership
import Docsmith.Error
import Docsmith.Example.Literal
import Docsmith.Example.Shape
import Docsmith.Example.Synthesizer
import Docsmith.Example.Template
import Docsmith.Main
import Docsmith.Metadata.Encoding
import Docsmith.Metadata.Loading
import Docsmith.Metadata.Model
import Docsmith.Metadata.Session
import Docsmith.Naming
import Docsmith.Proofs.Data.Decode
import Docsmith.Proofs.Description.Attributes
import Docsmith.Proofs.Description.Block
import Docsmith.Proofs.Description.Declared
import Docsmith.Proofs.Description.Declaring
import Docsmith.Proofs.Description.Filled
import Docsmith.Proofs.Description.Folding
import Docsmith.Proofs.Description.Gain
import Docsmith.Proofs.Description.Identifiers
import Docsmith.Proofs.Description.Once
import Docsmith.Proofs.Description.Ordering
import Docsmith.Proofs.Description.Places
import Docsmith.Proofs.Description.Skipping
import Docsmith.Proofs.Description.Values
import Docsmith.Proofs.Discovery.Arrays
import Docsmith.Proofs.Discovery.Closure
import Docsmith.Proofs.Discovery.Opacity
import Docsmith.Proofs.Discovery.Reach
import Docsmith.Proofs.Discovery.Union
import Docsmith.Proofs.Discovery.Visits
import Docsmith.Proofs.Example.Calls
import Docsmith.Proofs.Example.Completion
import Docsmith.Proofs.Example.Literal
import Docsmith.Proofs.Example.Selection
import Docsmith.Proofs.Example.Shape
import Docsmith.Proofs.Metadata.Contents
import Docsmith.Proofs.Metadata.Encoding
import Docsmith.Proofs.Metadata.References
import Docsmith.Proofs.Naming
import Docsmith.Proofs.Naming.Segments
import Docsmith.Proofs.Naming.Words
import Docsmith.Proofs.Preservation
import Docsmith.Proofs.Random.Generator
import Docsmith.Proofs.Run.Action
import Docsmith.Proofs.Run.Annotations
import Docsmith.Proofs.Run.Attempts
import Docsmith.Proofs.Run.Containment
import Docsmith.Proofs.Run.Descriptions
import Docsmith.Proofs.Run.Effects
import Docsmith.Proofs.Run.Entries
import Docsmith.Proofs.Run.Folder
import Docsmith.Proofs.Run.Independence
import Docsmith.Proofs.Run.Order
import Docsmith.Proofs.Run.Repetition
import Docsmith.Proofs.Run.Reports
import Docsmith.Proofs.Run.Samples
import Docsmith.Proofs.Run.Shown
import Docsmith.Proofs.Run.Simulation
import Docsmith.Proofs.Run.TypeNames
import Docsmith.Proofs.Source.Cuts
import Docsmith.Proofs.Source.Edit
import Docsmith.Proofs.Source.Gain
import Docsmith.Proofs.Source.Grammar.Built
import Docsmith.Proofs.Source.Grammar.Endings
import Docsmith.Proofs.Source.Grammar.Growth
import Docsmith.Proofs.Source.Grammar.Insertion
import Docsmith.Proofs.Source.Grammar.Items
import Docsmith.Proofs.Source.Grammar.Lists
import Docsmith.Proofs.Source.Grammar.Members
import Docsmith.Proofs.Source.Grammar.Names
import Docsmith.Proofs.Source.Grammar.Outlines
import Docsmith.Proofs.Source.Grammar.Place
import Docsmith.Proofs.Source.Grammar.Reading
import Docsmith.Proofs.Source.Grammar.Rules
import Docsmith.Proofs.Source.Grammar.Sealed
import Docsmith.Proofs.Source.Grammar.Steps
import Docsmith.Proofs.Source.Grammar.Uses
import Docsmith.Proofs.Source.Identifiers
import Docsmith.Proofs.Source.Imports
import Docsmith.Proofs.Source.Interleaving
import Docsmith.Proofs.Source.Layout
import Docsmith.Proofs.Source.Leaves
import Docsmith.Proofs.Source.Lexer
import Docsmith.Proofs.Source.Names
import Docsmith.Proofs.Source.Nesting
import Docsmith.Proofs.Source.Nodes
import Docsmith.Proofs.Source.Parts
import Docsmith.Proofs.Source.Preamble
import Docsmith.Proofs.Source.Readers
import Docsmith.Proofs.Source.Registration
import Docsmith.Proofs.Source.Rewriting
import Docsmith.Proofs.Source.Seats
import Docsmith.Proofs.Source.Separators
import Docsmith.Proofs.Source.Site
import Docsmith.Proofs.Source.Swapping
import Docsmith.Proofs.Source.TopLevel
import Docsmith.Proofs.Source.Weaving
import Docsmith.Proofs.Text.Bytes
import Docsmith.Proofs.Text.LetterCase
import Docsmith.Proofs.Text.Pieces
import Docsmith.Proofs.Text.Quoted
import Docsmith.Proofs.Text.Search
import Docsmith.Proofs.Text.SnakeCase
import Docsmith.Proofs.Text.Splitting
import Docsmith.Proofs.Text.Trim
import Docsmith.Proofs.Workspace.Calls
import Docsmith.Proofs.Workspace.Document
import Docsmith.Proofs.Workspace.Files
import Docsmith.Proofs.Workspace.Lawful
import Docsmith.Proofs.Workspace.Names
import Docsmith.Proofs.Workspace.Path
import Docsmith.Proofs.Workspace.Project
import Docsmith.Proofs.Workspace.Relative
import Docsmith.Proofs.Workspace.Sources
import Docsmith.Random.Generator
import Docsmith.Random.Keystream
import Docsmith.Run.Action
import Docsmith.Run.Annotations
import Docsmith.Run.Report
import Docsmith.Run.Samples
import Docsmith.Source.Declaration
import Docsmith.Source.Edit
import Docsmith.Source.File
import Docsmith.Source.Grammar
import Docsmith.Source.Grammar.Basic
import Docsmith.Source.Grammar.Builtin
import Docsmith.Source.Grammar.Expr
import Docsmith.Source.Grammar.First
import Docsmith.Source.Grammar.Item
import Docsmith.Source.Grammar.Name
import Docsmith.Source.Grammar.Path
import Docsmith.Source.Grammar.Pattern
import Docsmith.Source.Grammar.Type
import Docsmith.Source.Imports
import Docsmith.Source.Layout
import Docsmith.Source.Lexer
import Docsmith.Source.Preamble
import Docsmith.Source.Registry
import Docsmith.Source.Revision
import Docsmith.Source.Token
import Docsmith.Source.Tree
import Docsmith.Text.Blank
import Docsmith.Text.CharSet
import Docsmith.Text.Identifier
import Docsmith.Text.LetterCase
import Docsmith.Text.Printable
import Docsmith.Text.Quoted
import Docsmith.Text.Search
import Docsmith.Text.SnakeCase
import Docsmith.Workspace.Document
import Docsmith.Workspace.DocumentStore
import Docsmith.Workspace.Files
import Docsmith.Workspace.Memory
import Docsmith.Workspace.Path
import Docsmith.Workspace.Project
