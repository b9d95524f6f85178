import TwoWay.Exchange.Value
import TwoWay.Format.CountPrefixed
import TwoWay.Format.Records
import TwoWay.Grammar.Rules
import TwoWay.Grammar.Run
import TwoWay.Optic.Standard
import TwoWay.Outline.Shape
import TwoWay.Outline.Value
import TwoWay.Sequence.FrontArray
import TwoWay.Proofs.Runs
import TwoWay.SharedList.Registers
import TwoWay.Proofs.Numeral
import TwoWay.Proofs.Text
import TwoWay.Proofs.Safe
import TwoWay.Proofs.Lossless
import TwoWay.Proofs.CountPrefixed
import TwoWay.Proofs.Checked
import TwoWay.Proofs.Progress
import TwoWay.Proofs.CountPrefixed.Blocks
import TwoWay.Proofs.Spelling
import TwoWay.Proofs.CountPrefixed.RoundTrip
import TwoWay.Proofs.CountPrefixed.Refusal
import TwoWay.Proofs.SelfDelimiting
import TwoWay.Proofs.Frame
import TwoWay.Proofs.Records
import TwoWay.Proofs.Containers
import TwoWay.Proofs.Guarded
import TwoWay.Proofs.Events
import TwoWay.Proofs.Registers
import TwoWay.Proofs.Integer
import TwoWay.Proofs.Repetition
import TwoWay.Proofs.Greedy
import TwoWay.Proofs.Biased
import TwoWay.Proofs.CountPrefixed.PrefixCode
import TwoWay.Proofs.Optics
import TwoWay.Proofs.Adapting
import TwoWay.Proofs.Elements
