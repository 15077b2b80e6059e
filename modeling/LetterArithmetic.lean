import LetterArithmetic.Main
import LetterArithmetic.Proofs.BareNodes
import LetterArithmetic.Proofs.Calls
import LetterArithmetic.Proofs.Composition
import LetterArithmetic.Proofs.Concatenation
import LetterArithmetic.Proofs.Containment
import LetterArithmetic.Proofs.Counter
import LetterArithmetic.Proofs.Decoding
import LetterArithmetic.Proofs.Exact
import LetterArithmetic.Proofs.Grammar
import LetterArithmetic.Proofs.Grouping
import LetterArithmetic.Proofs.Interchange
import LetterArithmetic.Proofs.Inverse
import LetterArithmetic.Proofs.Items
import LetterArithmetic.Proofs.Layout
import LetterArithmetic.Proofs.Letters
import LetterArithmetic.Proofs.Numbering
import LetterArithmetic.Proofs.Numerals
import LetterArithmetic.Proofs.Objects
import LetterArithmetic.Proofs.Phrase
import LetterArithmetic.Proofs.Pruning
import LetterArithmetic.Proofs.RankOrder
import LetterArithmetic.Proofs.Reading
import LetterArithmetic.Proofs.Rescanning
import LetterArithmetic.Proofs.Resumption
import LetterArithmetic.Proofs.Sections
import LetterArithmetic.Proofs.Shortest
import LetterArithmetic.Proofs.Spelling
import LetterArithmetic.Proofs.Texts
import LetterArithmetic.Proofs.Transcript
import LetterArithmetic.Proofs.Trimming
import LetterArithmetic.Proofs.Visits
import LetterArithmetic.Proofs.Walk
