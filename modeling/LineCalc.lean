import LineCalc.Text.Basic
import LineCalc.Text.Quoted
import LineCalc.Token.Lexer
import LineCalc.Bits
import LineCalc.Fault
import LineCalc.Operator
import LineCalc.Tree
import LineCalc.Parser
import LineCalc.TokenStream.Reader
import LineCalc.Log
import LineCalc.Settings
import LineCalc.Settings.Lenient
import LineCalc.Text.Integer
import LineCalc.Text.Wrap
import LineCalc.CommandLine.Usage
import LineCalc.Configuration
import LineCalc.Program
import LineCalc.Main
import LineCalc.Proofs.Parser.Limit
import LineCalc.Proofs.Grammar
import LineCalc.Proofs.Grammar.Climbing
import LineCalc.Proofs.Acceptance
import LineCalc.Proofs.Parser.Nesting
import LineCalc.Proofs.Parser.Layers
import LineCalc.Proofs.Token.Spelling
import LineCalc.Proofs.Tree.Leaves
import LineCalc.Proofs.Tree.Reread
import LineCalc.Proofs.Tree.Postorder
import LineCalc.Proofs.Tree.Offences
import LineCalc.Proofs.RoundTrip
import LineCalc.Proofs.Token.Numerals
import LineCalc.Proofs.Token.Gaps
import LineCalc.Proofs.Substitution
import LineCalc.Proofs.TokenStream.Readers
import LineCalc.Proofs.Session.Replies
import LineCalc.Proofs.Session.Requests
import LineCalc.Proofs.Session.Survival
import LineCalc.Proofs.Session.Expressions
import LineCalc.Proofs.TokenStream.Entries
import LineCalc.Proofs.TokenStream.Layout
import LineCalc.Proofs.Dialogue.Agreement
import LineCalc.Proofs.Text.Lines
import LineCalc.Proofs.Text.Strip
import LineCalc.Proofs.Dialogue.Streams
import LineCalc.Proofs.Session.Answers
import LineCalc.Proofs.Session.Grouping
import LineCalc.Proofs.Operator.Division
import LineCalc.Proofs.Tree.Unambiguous
import LineCalc.Proofs.Text.Breaks
import LineCalc.Proofs.Program
import LineCalc.Proofs.CommandLine.Mentions
import LineCalc.Proofs.Home
import LineCalc.Proofs.Settings
import LineCalc.Proofs.Configuration
import LineCalc.Proofs.Operator.Places
import LineCalc.Proofs.TokenStream.Steps
import LineCalc.Proofs.TokenStream.Halts
import LineCalc.Proofs.TokenStream.Progress
