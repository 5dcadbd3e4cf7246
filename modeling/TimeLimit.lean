import TimeLimit.Main
import TimeLimit.Proofs.Header
import TimeLimit.Proofs.Opening
import TimeLimit.Proofs.Visit
import TimeLimit.Proofs.Bracket
import TimeLimit.Proofs.Tail
import TimeLimit.Proofs.Outline
import TimeLimit.Proofs.Place
import TimeLimit.Proofs.Coverage
import TimeLimit.Proofs.Slot
import TimeLimit.Proofs.Stable
import TimeLimit.Proofs.Locality
import TimeLimit.Proofs.OneTest
import TimeLimit.Proofs.Body
import TimeLimit.Proofs.SingleStep
import TimeLimit.Proofs.Lines
import TimeLimit.Proofs.Listing
import TimeLimit.Proofs.Walk
import TimeLimit.Proofs.Replace
import TimeLimit.Proofs.Host
import TimeLimit.Proofs.Search
import TimeLimit.Proofs.Turn
import TimeLimit.Proofs.Candidate
import TimeLimit.Proofs.Evolution
import TimeLimit.Proofs.Shape
import TimeLimit.Proofs.Independence
import TimeLimit.Proofs.Frame
import TimeLimit.Proofs.Modes
import TimeLimit.Proofs.Convergence
import TimeLimit.Proofs.Checked.Locate
import TimeLimit.Proofs.Checked.Listing
import TimeLimit.Proofs.LastArgument
import TimeLimit.Proofs.Checked.Tail
import TimeLimit.Proofs.Checked.Scan
import TimeLimit.Proofs.Pattern
import TimeLimit.Proofs.CallEnd
import TimeLimit.Proofs.Comment
import TimeLimit.Proofs.Checked.Comment
import TimeLimit.Proofs.Cut
import TimeLimit.Proofs.Lexeme
import TimeLimit.Proofs.LexedCut
import TimeLimit.Proofs.InCode
import TimeLimit.Proofs.Crlf
import TimeLimit.Proofs.FirstClose
import TimeLimit.Proofs.LineEndings
import TimeLimit.Proofs.PathOrder
import TimeLimit.Proofs.Discovery
import TimeLimit.Proofs.Write
import TimeLimit.Proofs.Events
import TimeLimit.Proofs.Reason
import TimeLimit.Proofs.ListingRows
import TimeLimit.Proofs.Settings
import TimeLimit.Proofs.Reading
