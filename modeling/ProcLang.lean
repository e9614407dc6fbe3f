import ProcLang.Pipeline
import ProcLang.Proofs.Decimal.Division
import ProcLang.Proofs.Grammar.Finishes
import ProcLang.Proofs.Grammar.Items
import ProcLang.Proofs.Grammar.LiteralTokens
import ProcLang.Proofs.Grammar.Quotation
import ProcLang.Proofs.Grammar.Sentences
import ProcLang.Proofs.Machine.CallLimit
import ProcLang.Proofs.Machine.ElementAssignment
import ProcLang.Proofs.Machine.Isolation
import ProcLang.Proofs.Machine.SharedScopes
import ProcLang.Proofs.Machine.SwitchChain
import ProcLang.Proofs.Safety.NameSafety
import ProcLang.Proofs.Safety.Termination
import ProcLang.Proofs.Safety.TypeSafety
import ProcLang.Proofs.Token.Tiling
import ProcLang.Proofs.Typing.Annotation
import ProcLang.Proofs.Typing.DefaultCases
import ProcLang.Proofs.Typing.FrameStack
import ProcLang.Proofs.Typing.OperatorTables
import ProcLang.Proofs.Typing.Reuse
import ProcLang.Proofs.Typing.RootScope
import ProcLang.Proofs.Typing.WrittenTypes
import ProcLang.Proofs.Unchecked
import ProcLang.Proofs.Value.Comparisons
import ProcLang.Proofs.Value.Failures
