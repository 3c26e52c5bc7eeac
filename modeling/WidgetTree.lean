import WidgetTree.Command.Disk
import WidgetTree.Main
import WidgetTree.Proofs.Excerpt.Nodes
import WidgetTree.Proofs.FinalBreak
import WidgetTree.Proofs.Grammar.Colons
import WidgetTree.Proofs.Lexeme.Findings
import WidgetTree.Proofs.Offside.Attached
import WidgetTree.Proofs.Outline.Reading
import WidgetTree.Proofs.Returns.Compile
import WidgetTree.Session
import WidgetTree.Proofs.Grammar.Blanks
import WidgetTree.Proofs.Dart.View
import WidgetTree.Proofs.Grammar.Reindented
import WidgetTree.Proofs.Command.Interruption
import WidgetTree.Proofs.Session
import WidgetTree.Proofs.Command.Agreement
import WidgetTree.Proofs.Dart.Literals
import WidgetTree.Proofs.Dart.Members
import WidgetTree.Proofs.Lexeme.Physical
import WidgetTree.Proofs.Lexeme.Sorted
import WidgetTree.Proofs.Dart.Indented
import WidgetTree.Proofs.ReportLines
import WidgetTree.Proofs.Lexeme.Numbers
import WidgetTree.Proofs.Lexeme.Indentations
import WidgetTree.Proofs.Lexeme.Alone
import WidgetTree.Proofs.Grammar.Reported
import WidgetTree.Proofs.Wrapping.View
import WidgetTree.Proofs.Grammar.FirstEnd
import WidgetTree.Proofs.Grammar.Progress
import WidgetTree.Proofs.Command.ClassFiles
