import Stencil.Dockerfile
import Stencil.Main
import Stencil.Proofs.Colouring
import Stencil.Proofs.Components
import Stencil.Proofs.Cutting
import Stencil.Proofs.Deciding
import Stencil.Proofs.Delimiters
import Stencil.Proofs.DistinctKeys
import Stencil.Proofs.ErrorLists
import Stencil.Proofs.FillingAgain
import Stencil.Proofs.FillingFiles
import Stencil.Proofs.FillingMany
import Stencil.Proofs.GrowingTables
import Stencil.Proofs.Joining
import Stencil.Proofs.Mending
import Stencil.Proofs.Names
import Stencil.Proofs.OnlyDockerfiles
import Stencil.Proofs.OutputPaths
import Stencil.Proofs.Positions
import Stencil.Proofs.Problems
import Stencil.Proofs.ReplacementTexts
import Stencil.Proofs.ReportPlace
import Stencil.Proofs.ReportReading
import Stencil.Proofs.ResolvingOutputs
import Stencil.Proofs.ResolvingPaths
import Stencil.Proofs.Respelling
import Stencil.Proofs.Restarting
import Stencil.Proofs.Routes
import Stencil.Proofs.RunningCommands
import Stencil.Proofs.Schema
import Stencil.Proofs.SearchFilling
import Stencil.Proofs.SiblingOutput
import Stencil.Proofs.SourceLines
import Stencil.Proofs.Spelling
import Stencil.Proofs.Suggesting
import Stencil.Proofs.TableOrders
import Stencil.Proofs.Taking
import Stencil.Proofs.Underlining
import Stencil.Proofs.WrittenDocuments
import Stencil.Proofs.WrittenSegments
import Stencil.Proofs.WrittenStrings
import Stencil.Proofs.WrittenTables
import Stencil.Report
import Stencil.Report.Reading
import Stencil.Table.Chapel
import Stencil.Table.Document
import Stencil.Table.Listing
import Stencil.Template.Search
import Stencil.Template.Segment
import Stencil.Text.Bytes
import Stencil.Token.Lexeme
import Stencil.Token.Reader
import Stencil.Token.WellFormed
import Stencil.Toml.Writer
