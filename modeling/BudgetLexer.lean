import BudgetLexer.Main
import BudgetLexer.Proofs.Lines
import BudgetLexer.Proofs.Rendering
import BudgetLexer.Proofs.Resumption
import BudgetLexer.Proofs.Splice
import BudgetLexer.Scanner.Progress
import BudgetLexer.Scanner.Request
import BudgetLexer.Session
import BudgetLexer.Proofs.Grammar.Blanking
import BudgetLexer.Proofs.Recovery
import BudgetLexer.Proofs.Session
import BudgetLexer.Proofs.Requests
import BudgetLexer.Proofs.Lookahead
import BudgetLexer.Proofs.CommandLine.LineByLine
import BudgetLexer.Proofs.Comments
import BudgetLexer.Proofs.Failures
import BudgetLexer.Proofs.LineEnds
import BudgetLexer.Proofs.Output
import BudgetLexer.Proofs.Lexemes
import BudgetLexer.Proofs.PrintedNumbers
