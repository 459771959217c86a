import StreamScript.Bracket.Session
import StreamScript.Main
import StreamScript.Node.Equality
import StreamScript.Node.Outline
import StreamScript.Proofs.Entries
import StreamScript.Proofs.Reading
import StreamScript.Proofs.SpelledReading
import StreamScript.Proofs.Reached
import StreamScript.Proofs.Acceptance
import StreamScript.Proofs.FirstError
import StreamScript.Proofs.Unclosed
import StreamScript.Proofs.CharBytes
import StreamScript.Proofs.Pieces
import StreamScript.Proofs.TextScan
import StreamScript.Proofs.Lexical
import StreamScript.Proofs.Spaced
import StreamScript.Proofs.WellFormed
import StreamScript.Proofs.Image
import StreamScript.Proofs.Layout
import StreamScript.Proofs.Classification
import StreamScript.Proofs.Respacing
import StreamScript.Proofs.Descent
import StreamScript.Proofs.NestingLimit
import StreamScript.Proofs.Concatenation
import StreamScript.Proofs.Completion
import StreamScript.Proofs.WellNested
import StreamScript.Proofs.BracketDiscipline
import StreamScript.Proofs.SourceLines
import StreamScript.Proofs.BlamedLine
import StreamScript.Proofs.LineByLine
import StreamScript.Proofs.BlockDepth
import StreamScript.Proofs.DroppedClosing
import StreamScript.Proofs.Renumbering
import StreamScript.Proofs.TextEnds
import StreamScript.Proofs.NodeLabel
import StreamScript.Proofs.TreeText
import StreamScript.Proofs.Preorder
import StreamScript.Proofs.StatementRecords
import StreamScript.Proofs.FileRuns
import StreamScript.Proofs.LineEdges
import StreamScript.Proofs.ListingText
import StreamScript.Proofs.MessageText
import StreamScript.Proofs.SingleStack
import StreamScript.Proofs.CharBoundaries
