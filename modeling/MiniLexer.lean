import MiniLexer.Cli.FileTree
import MiniLexer.Diagnostic
import MiniLexer.Lexeme
import MiniLexer.Main
import MiniLexer.TokenStream.Zipper
import MiniLexer.Proofs.LexemeShape
import MiniLexer.Proofs.OpenLexeme
import MiniLexer.Proofs.Layout
import MiniLexer.Proofs.Tiling
import MiniLexer.Proofs.Concatenation
import MiniLexer.Proofs.Finality
import MiniLexer.Proofs.ScannerInvariant
import MiniLexer.Proofs.Account
import MiniLexer.Proofs.Lines
import MiniLexer.Proofs.Caret
import MiniLexer.Proofs.ZipperView
import MiniLexer.Proofs.Respacing
import MiniLexer.Proofs.CommandLine
import MiniLexer.Proofs.PathResolution
import MiniLexer.Proofs.AllOrNothing
import MiniLexer.Proofs.Listing
import MiniLexer.Proofs.Places
import MiniLexer.Proofs.Renaming
import MiniLexer.Proofs.WordRuns
import MiniLexer.Proofs.Expectations
import MiniLexer.Proofs.Operators
import MiniLexer.Proofs.SavedPosition
import MiniLexer.Proofs.LineColumn
import MiniLexer.Proofs.NewlineCount
import MiniLexer.Proofs.ExcerptLayout
import MiniLexer.Proofs.Dispatches
import MiniLexer.Proofs.TrueOffsets
import MiniLexer.Proofs.Messages
import MiniLexer.Proofs.RowsReadBack
