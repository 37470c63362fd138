import TemplateTyping.Diagnostic
import TemplateTyping.Proofs.Check.Naming
import TemplateTyping.Proofs.Token.Tiling
import TemplateTyping.Tree.Parser
import TemplateTyping.Proofs.Token.Rescan
import TemplateTyping.Proofs.Tree.Readable
import TemplateTyping.Proofs.Tree.Reading
import TemplateTyping.Proofs.Text.Quoted
import TemplateTyping.Proofs.Tree.Pieces
import TemplateTyping.Proofs.Tree.Rereading
import TemplateTyping.Proofs.Tree.RoundTrip
import TemplateTyping.Proofs.Token.Closing
import TemplateTyping.Proofs.Tree.Settling
import TemplateTyping.Proofs.Tree.Termination
import TemplateTyping.Proofs.Tree.Jumps
import TemplateTyping.Proofs.Check.Fallback
import TemplateTyping.Proofs.Check.Closure
import TemplateTyping.Proofs.Check.Confinement
import TemplateTyping.Proofs.Check.Nesting
import TemplateTyping.Proofs.Token.Placing
import TemplateTyping.Proofs.Tree.Placement
import TemplateTyping.Proofs.Tree.PipelineSpans
import TemplateTyping.Proofs.Tree.Spans
import TemplateTyping.Proofs.Check.Blame
import TemplateTyping.Proofs.Check.Reads
import TemplateTyping.Proofs.Check.Writes
import TemplateTyping.Proofs.Host.Visibility
import TemplateTyping.Proofs.Check.Relevance
import TemplateTyping.Proofs.Host.PointerChain
import TemplateTyping.Proofs.Host.DefinitionOrder
import TemplateTyping.Proofs.Host.Promotion
import TemplateTyping.Proofs.Literal.IntegerGrammar
import TemplateTyping.Proofs.Tree.Rejection
import TemplateTyping.Proofs.Check.IntegerConstant
import TemplateTyping.Proofs.Host.SearchRounds
import TemplateTyping.Proofs.Host.MethodSets
import TemplateTyping.Proofs.Check.Piping
import TemplateTyping.Proofs.Check.PathSplit
import TemplateTyping.Proofs.Check.Signatures
import TemplateTyping.Proofs.Literal.Escapes
import TemplateTyping.Proofs.Tree.PipelineTokens
import TemplateTyping.Proofs.Tree.PipelineOrigin
import TemplateTyping.Proofs.Literal.IntegerScan
import TemplateTyping.Proofs.Tree.StringEnds
import TemplateTyping.Proofs.Tree.StringFaults
import TemplateTyping.Proofs.Tree.Merging
import TemplateTyping.Proofs.Tree.Definitions
import TemplateTyping.Proofs.Host.Describing
import TemplateTyping.Proofs.Token.Stream
import TemplateTyping.Proofs.Check.Interpretation
import TemplateTyping.Proofs.Check.IntegerKeys
import TemplateTyping.Proofs.Check.Stack
import TemplateTyping.Proofs.Source.Locating
