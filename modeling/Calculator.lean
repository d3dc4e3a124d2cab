import Calculator.Text.Cursor
import Calculator.Main
import Calculator.Proofs.Tiling
import Calculator.Proofs.Value
import Calculator.Proofs.SyntaxFault
import Calculator.Proofs.FirstFault
import Calculator.Proofs.LexicalFault
import Calculator.Proofs.Coverage
import Calculator.Proofs.Delivery
import Calculator.Proofs.Nesting
import Calculator.Proofs.Writing
import Calculator.Proofs.Precedence
import Calculator.Proofs.Answer
import Calculator.Proofs.Cutting
import Calculator.Proofs.Openings
import Calculator.Proofs.Depth
import Calculator.Proofs.Place
import Calculator.Proofs.Relocation
import Calculator.Proofs.Spacing
import Calculator.Proofs.Replacement
import Calculator.Proofs.Recalculation
import Calculator.Proofs.Listing
import Calculator.Proofs.Blanking
import Calculator.Proofs.Lookahead
import Calculator.Proofs.LineEnds
import Calculator.Proofs.Balance
import Calculator.Proofs.LongestPhrase
import Calculator.Proofs.Standing
import Calculator.Proofs.Aftermath
import Calculator.Proofs.Joining
import Calculator.Proofs.Decimal
import Calculator.Proofs.Slicing
import Calculator.Proofs.Division
import Calculator.Proofs.Safety
import Calculator.Proofs.CharacterLoop
import Calculator.Proofs.Magnitude
import Calculator.Proofs.Termination
import Calculator.Proofs.Interruption
import Calculator.Proofs.Wording
import Calculator.Proofs.TextInFront
import Calculator.Proofs.BlockLoop
import Calculator.Proofs.ControlSequences
import Calculator.Proofs.OutputFile
import Calculator.Proofs.Interruption
