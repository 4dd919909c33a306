import Mathlib.Init

/-!
# Answers of a port

A call of a port is answered, fails, or takes effect with its answer lost. A caller cannot tell the
last two apart.
-/
namespace Cryptox.Library

inductive PortAnswer where
  | done
  | failed (error : String)
  | lost (error : String)
deriving DecidableEq, Repr

namespace PortAnswer

def lands : PortAnswer → Bool
  | done | lost _ => true
  | failed _ => false

def error? : PortAnswer → Option String
  | done => none
  | failed error | lost error => some error

end PortAnswer

end Cryptox.Library
