import Munch.Proofs.Bounds
import Munch.Proofs.Calls
import Munch.Proofs.Cli.Records
import Munch.Proofs.Closers
import Munch.Proofs.Composition
import Munch.Proofs.Grammar.Agreement
import Munch.Proofs.Layout
import Munch.Proofs.Locality
import Munch.Proofs.Partition
import Munch.Proofs.Places
import Munch.Proofs.Plain
import Munch.Proofs.Precedence
import Munch.Proofs.Respacing
import Munch.Proofs.Rules.Addition
import Munch.Proofs.Rules.SameRules
import Munch.Proofs.Scanner
import Munch.Proofs.Separators
import Munch.Proofs.Session.Families
import Munch.Proofs.Values
import Munch.Proofs.Words
