import EnumInline.Analysis
import EnumInline.Binding.Facts
import EnumInline.Binding.Graph
import EnumInline.Binding.Statement
import EnumInline.CommandLine.Arguments
import EnumInline.CommandLine.Command
import EnumInline.CommandLine.Help
import EnumInline.CommandLine.Report
import EnumInline.CommandLine.Run
import EnumInline.Digest.Sha256
import EnumInline.Double.Basic
import EnumInline.Double.Reading
import EnumInline.Double.Shortest
import EnumInline.Double.Text
import EnumInline.Double.Word
import EnumInline.Enum.Declaration
import EnumInline.Enum.Evaluation
import EnumInline.Enum.Index
import EnumInline.Enum.Initializer
import EnumInline.Enum.Literal
import EnumInline.Enum.Value
import EnumInline.Failure
import EnumInline.FilePattern.Basic
import EnumInline.FilePattern.Match
import EnumInline.FilePattern.Read
import EnumInline.FileTree.Basic
import EnumInline.FileTree.Build
import EnumInline.FileTree.Lookup
import EnumInline.Hook
import EnumInline.Json.Object
import EnumInline.Json.Quoted
import EnumInline.Json5.Basic
import EnumInline.Json5.Read
import EnumInline.Json5.Text
import EnumInline.Key
import EnumInline.Main
import EnumInline.Markup.Element
import EnumInline.Markup.Matching
import EnumInline.Markup.ScriptBlocks
import EnumInline.ModuleId
import EnumInline.Path.Lexical
import EnumInline.Path.Steps
import EnumInline.Propagation
import EnumInline.Resolution.Aliases
import EnumInline.Resolution.PathMapping
import EnumInline.Resolution.Resolver
import EnumInline.Session
import EnumInline.Settings
import EnumInline.Setup
import EnumInline.Source.Gather
import EnumInline.Source.Kind
import EnumInline.Source.Module
import EnumInline.Substitution
import EnumInline.Table.Basic
import EnumInline.Table.Build
import EnumInline.Text.Alphabetic
import EnumInline.Text.Character
import EnumInline.Text.CodeRange
import EnumInline.Text.Location
import EnumInline.Text.NameContinue
import EnumInline.Text.NameStart
import EnumInline.Text.Numeric
import EnumInline.Text.Pieces
import EnumInline.Text.PlainName
import EnumInline.Text.SourceName
import EnumInline.Text.WordRange
import EnumInline.Toml.Read
import EnumInline.Toml.Text
import EnumInline.TsConfig.Basic
import EnumInline.TsConfig.Load
import EnumInline.TypeScript.Grammar.Basic
import EnumInline.TypeScript.Grammar.Binding
import EnumInline.TypeScript.Grammar.Expressions
import EnumInline.TypeScript.Grammar.Functions
import EnumInline.TypeScript.Grammar.Markup
import EnumInline.TypeScript.Grammar.Modules
import EnumInline.TypeScript.Grammar.Statements
import EnumInline.TypeScript.Grammar.Template
import EnumInline.TypeScript.Grammar.Types
import EnumInline.TypeScript.Lexer
import EnumInline.TypeScript.Lexer.Escape
import EnumInline.TypeScript.Lexer.Name
import EnumInline.TypeScript.Lexer.Numeral
import EnumInline.TypeScript.Lexer.Quoted
import EnumInline.TypeScript.Lexer.RegularExpression
import EnumInline.TypeScript.Lexer.Trivia
import EnumInline.TypeScript.Parse
import EnumInline.TypeScript.ReservedWord
import EnumInline.TypeScript.Syntax
import EnumInline.TypeScript.Token
import EnumInline.Proofs.Analysis.Independence
import EnumInline.Proofs.Analysis.Inlining
import EnumInline.Proofs.Analysis.Order
import EnumInline.Proofs.Analysis.Statements
import EnumInline.Proofs.Analysis.Targets
import EnumInline.Proofs.Analysis.Texts
import EnumInline.Proofs.Analysis.Tokens
import EnumInline.Proofs.Binding.Meaning
import EnumInline.Proofs.Binding.Nearest
import EnumInline.Proofs.Binding.Resolution
import EnumInline.Proofs.Binding.Restriction
import EnumInline.Proofs.CommandLine.OutputPath
import EnumInline.Proofs.CommandLine.Rewriting
import EnumInline.Proofs.CommandLine.WriteBack
import EnumInline.Proofs.Double.Digits
import EnumInline.Proofs.Double.Rounding
import EnumInline.Proofs.Double.Shortest
import EnumInline.Proofs.Double.Text
import EnumInline.Proofs.Double.Whole
import EnumInline.Proofs.Double.Word
import EnumInline.Proofs.Enum.Brackets
import EnumInline.Proofs.Enum.Counting
import EnumInline.Proofs.Enum.Evaluation
import EnumInline.Proofs.Enum.Failure
import EnumInline.Proofs.Enum.Faults
import EnumInline.Proofs.Enum.Inlining
import EnumInline.Proofs.Enum.Meaning
import EnumInline.Proofs.Enum.Origins
import EnumInline.Proofs.Enum.ReadBack
import EnumInline.Proofs.Enum.Restriction
import EnumInline.Proofs.Enum.Spelling
import EnumInline.Proofs.FileTree.Writing
import EnumInline.Proofs.Json.Objects
import EnumInline.Proofs.Json.Strings
import EnumInline.Proofs.KeyedList
import EnumInline.Proofs.Markup.Attributes
import EnumInline.Proofs.Markup.Elements
import EnumInline.Proofs.Markup.Pattern
import EnumInline.Proofs.Markup.ScriptBlocks
import EnumInline.Proofs.Outcome
import EnumInline.Proofs.Path.Canonical
import EnumInline.Proofs.Path.Components
import EnumInline.Proofs.Path.Detours
import EnumInline.Proofs.Path.Lexical
import EnumInline.Proofs.Propagation
import EnumInline.Proofs.Propagation.Nearest
import EnumInline.Proofs.Propagation.Restriction
import EnumInline.Proofs.Propagation.Stages
import EnumInline.Proofs.Resolution.Aliases
import EnumInline.Proofs.Resolution.Extension
import EnumInline.Proofs.Resolution.Files
import EnumInline.Proofs.Session.Files
import EnumInline.Proofs.Session.Members
import EnumInline.Proofs.Session.Rewriting
import EnumInline.Proofs.Session.Spellings
import EnumInline.Proofs.Source.Gathering
import EnumInline.Proofs.Substitution.Brackets
import EnumInline.Proofs.Substitution.Idempotence
import EnumInline.Proofs.Substitution.LeftContext
import EnumInline.Proofs.Substitution.LineEnds
import EnumInline.Proofs.Substitution.Literals
import EnumInline.Proofs.Substitution.Occurrence
import EnumInline.Proofs.Substitution.Replacement
import EnumInline.Proofs.Substitution.SingleAccess
import EnumInline.Proofs.Table.Entries
import EnumInline.Proofs.Table.Reading
import EnumInline.Proofs.Text.ByteOrder
import EnumInline.Proofs.Text.CodeRange
import EnumInline.Proofs.Text.Pieces
import EnumInline.Proofs.TsConfig.Inheritance
import EnumInline.Proofs.TsConfig.Loading
import EnumInline.Proofs.TypeScript.Enums
import EnumInline.Proofs.TypeScript.Literals
import EnumInline.Proofs.TypeScript.Names
