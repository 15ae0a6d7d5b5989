import Purity.Json.Value
import Purity.Main
import Purity.Proofs.Contexts
import Purity.Proofs.Delimiting
import Purity.Proofs.Discovery
import Purity.Proofs.Ending
import Purity.Proofs.Exemption
import Purity.Proofs.FieldOrder
import Purity.Proofs.NamesFile
import Purity.Proofs.Newlines
import Purity.Proofs.OutputText
import Purity.Proofs.Suggestions
import Purity.Sketch
