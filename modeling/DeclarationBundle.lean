import DeclarationBundle.Compiler.Program
import DeclarationBundle.Text.Indent
import DeclarationBundle.Text.Quoted
import DeclarationBundle.FileTree.Search
import DeclarationBundle.FileTree.Create
import DeclarationBundle.Bundle.Output
import DeclarationBundle.Bundle.Selection
import DeclarationBundle.Config.Options
import DeclarationBundle.Compiler.Run
import DeclarationBundle.CommandLine.Words
import DeclarationBundle.CommandLine.Arguments
import DeclarationBundle.CommandLine.Help
import DeclarationBundle.Main
import DeclarationBundle.Proofs.Text.Encoding
import DeclarationBundle.Proofs.Path.NormalForm
import DeclarationBundle.Proofs.ModuleId.CrossReference
import DeclarationBundle.Proofs.Syntax.Preorder
import DeclarationBundle.Proofs.Syntax.Aligned
import DeclarationBundle.Proofs.Syntax.Boundaries
import DeclarationBundle.Proofs.Rewrite.Splice
import DeclarationBundle.Proofs.Reference.Rehoming
import DeclarationBundle.Proofs.FileTree.Opening
import DeclarationBundle.Proofs.Bundle.Plan
import DeclarationBundle.Proofs.Bundle.Success
import DeclarationBundle.Proofs.Bundle.Cut
import DeclarationBundle.Proofs.Rewrite.Offers
import DeclarationBundle.Proofs.Rewrite.Account
import DeclarationBundle.Proofs.Bundle.Agreement
import DeclarationBundle.Proofs.Bundle.GlobalErrors
import DeclarationBundle.Proofs.Bundle.Refinement
import DeclarationBundle.Proofs.Bundle.LifeCycle
import DeclarationBundle.Proofs.Compiler.ReadBack
import DeclarationBundle.Proofs.Path.Trail
import DeclarationBundle.Proofs.Path.Ascent
import DeclarationBundle.Proofs.ModuleId.LeavingReference
import DeclarationBundle.Proofs.Bundle.Exclusion
import DeclarationBundle.Proofs.Text.Lines
import DeclarationBundle.Proofs.Bundle.BlockNames
import DeclarationBundle.Proofs.Reference.Literal
import DeclarationBundle.Proofs.Bundle.Unreported
import DeclarationBundle.Proofs.CommandLine.Endings
import DeclarationBundle.Proofs.Text.Indentation
import DeclarationBundle.Proofs.Bundle.Blocks
import DeclarationBundle.Proofs.Compiler.SourceRoot
import DeclarationBundle.Proofs.Compiler.Concatenation
import DeclarationBundle.Proofs.Syntax.DocumentOrder
import DeclarationBundle.Proofs.Syntax.Strings
import DeclarationBundle.Proofs.Syntax.Tokens
import DeclarationBundle.Proofs.Syntax.Comment
import DeclarationBundle.Proofs.Reference.RequireTarget
import DeclarationBundle.Proofs.Reference.Comments
import DeclarationBundle.Proofs.ModuleId.SameModule
import DeclarationBundle.Proofs.Path.Under
import DeclarationBundle.Proofs.Bundle.Roots
import DeclarationBundle.Proofs.Config.Validation
import DeclarationBundle.Proofs.Path.Depth
import DeclarationBundle.Proofs.FileTree.Likeness
import DeclarationBundle.Proofs.FileTree.Search
import DeclarationBundle.Proofs.FileTree.Expansion
