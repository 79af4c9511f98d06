import Reckon.CommandLine
import Reckon.Main
import Reckon.Report.Vars
import Reckon.Token.Cursor
import Reckon.Proofs.Acceptance
import Reckon.Proofs.Rendering
import Reckon.Proofs.Place
import Reckon.Proofs.Lockstep
import Reckon.Proofs.Respacing
import Reckon.Proofs.ResultText
import Reckon.Proofs.Tokenization
import Reckon.Proofs.Counterpart
import Reckon.Proofs.Json.Report
import Reckon.Proofs.Json.Outcome
import Reckon.Proofs.Frames.Interpreter
import Reckon.Proofs.Noninterference
import Reckon.Proofs.Invocation
import Reckon.Proofs.Frames.Recognizer
import Reckon.Proofs.Truncation
import Reckon.Proofs.Cutoff
import Reckon.Proofs.Lookalike
import Reckon.Proofs.Hypotenuse
import Reckon.Proofs.Extremum
import Reckon.Proofs.HalfUp
import Reckon.Proofs.Word
import Reckon.Proofs.BoundNames
import Reckon.Proofs.Concatenation
import Reckon.Proofs.Cursor
import Reckon.Proofs.SignedNumeral
import Reckon.Proofs.Scan
import Reckon.Proofs.Arity
