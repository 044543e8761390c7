import BlockLang.Main
import BlockLang.Proofs.Aliases.Failures
import BlockLang.Proofs.Aliases.KeywordFile
import BlockLang.Proofs.Aliases.Order
import BlockLang.Proofs.Aliases.Words
import BlockLang.Proofs.CommandLine.AllOrNothing
import BlockLang.Proofs.CommandLine.Arguments
import BlockLang.Proofs.CommandLine.Configuration
import BlockLang.Proofs.Completion.Program
import BlockLang.Proofs.Diagnostic.Ended
import BlockLang.Proofs.Diagnostic.Located
import BlockLang.Proofs.Lookahead.Clauses
import BlockLang.Proofs.Lookahead.Limit
import BlockLang.Proofs.Lookahead.Streams
import BlockLang.Proofs.Recognition.LoopHeaders
import BlockLang.Proofs.Source.Concatenation
import BlockLang.Proofs.Source.Denoted
import BlockLang.Proofs.Source.Indentation
import BlockLang.Proofs.Source.RoundTrip
import BlockLang.Proofs.Token.Spacing
import BlockLang.Proofs.Tree.Outline
import BlockLang.Token.Reader
