import JsonShape.Unicode.Ranges
import JsonShape.Unicode.Letter
import JsonShape.Unicode.DecimalDigit
import JsonShape.Unicode.Lowercase
import JsonShape.Unicode.Cased
import JsonShape.Unicode.CaseRun
import JsonShape.Unicode.Upper
import JsonShape.Unicode.Lower
import JsonShape.Unicode.Quoted
import JsonShape.Unicode.WhiteSpace
import JsonShape.Token.Basic
import JsonShape.Token.Lexeme
import JsonShape.Token.Scan
import JsonShape.Document.Members
import JsonShape.Document.Node
import JsonShape.Error
import JsonShape.Document.Parse
import JsonShape.Shape.Basic
import JsonShape.Naming.Identifier
import JsonShape.Naming.Claim
import JsonShape.Shape.Infer
import JsonShape.Options
import JsonShape.Declaration
import JsonShape.Generator
import JsonShape.CommandLine.Arguments
import JsonShape.CommandLine.SystemError
import JsonShape.CommandLine.Source
import JsonShape.CommandLine.FileSystem
import JsonShape.CommandLine.Run
import JsonShape.Main
import JsonShape.Proofs.Document.Members
import JsonShape.Proofs.Document.Node
import JsonShape.Proofs.Shape.Group
import JsonShape.Proofs.Shape.Accepts
import JsonShape.Proofs.Shape.Least
import JsonShape.Proofs.Document.Derivation
import JsonShape.Proofs.Document.Acceptance
import JsonShape.Proofs.Text.Completeness
import JsonShape.Proofs.Document.Reordering
import JsonShape.Proofs.Shape.Reordering
import JsonShape.Proofs.Text.Reordering
import JsonShape.Proofs.Document.Diagnosis
import JsonShape.Proofs.Naming.Numbered
import JsonShape.Proofs.Naming.Legality
import JsonShape.Proofs.Declaration.Tag
import JsonShape.Proofs.Document.Depth
import JsonShape.Proofs.Token.Scanning
import JsonShape.Proofs.Token.Tiling
import JsonShape.Proofs.Token.Lexable
import JsonShape.Proofs.Document.Gathering
import JsonShape.Proofs.Shape.Merging
import JsonShape.Proofs.Document.Extension
import JsonShape.Proofs.Shape.Extension
import JsonShape.Proofs.Naming.Distinct
import JsonShape.Proofs.Shape.Structs
import JsonShape.Proofs.Declaration.Injective
import JsonShape.Proofs.Text.Strictness
import JsonShape.Proofs.Text.Width
import JsonShape.Proofs.Shape.Copies
import JsonShape.Proofs.Text.Outline
import JsonShape.Proofs.Declaration.Key
import JsonShape.Proofs.Checked.Cursor
import JsonShape.Proofs.Checked.Tokens
import JsonShape.Proofs.Naming.Reserved
import JsonShape.Proofs.Checked.Names
import JsonShape.Proofs.Naming.Overflow
import JsonShape.Proofs.Checked.Parse
import JsonShape.Proofs.Checked.Infer
import JsonShape.Proofs.Checked.Overflow
import JsonShape.Proofs.Checked.Generate
import JsonShape.Proofs.Token.Printing
import JsonShape.Proofs.Shape.Renames
import JsonShape.Proofs.Document.Repeats
import JsonShape.Proofs.Document.Objects
import JsonShape.Proofs.Text.Repeats
import JsonShape.Proofs.Document.Pushes
import JsonShape.Proofs.Naming.Search
import JsonShape.Proofs.CommandLine.Choices
import JsonShape.Proofs.CommandLine.Spelling
import JsonShape.Proofs.Naming.Package
import JsonShape.Proofs.CommandLine.Agreement
