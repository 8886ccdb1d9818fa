import MiniScheme.Proofs.Datum.Printed
import MiniScheme.Proofs.Grammar.Soundness

/-!
# What cannot be printed

Printing goes through lists and through the items and the tails of dotted lists, from the left to the right.
The data that it meets there, other than lists and dotted lists, are the exposed ones. It fails if one of
them is of a kind without a printed form, and the first such one is the one that it reports.
-/

namespace MiniScheme

/-! ## The failure of a computation -/

namespace Datum

/-! ## Exposed data -/

end Datum

end MiniScheme
