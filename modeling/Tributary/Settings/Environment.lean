import Tributary.Text.Blank
import Tributary.Text.Lowercase

/-!
# Runtime environments

The environment that a deployment runs in. It selects the file that is laid over the base
configuration.
-/

namespace Tributary

/-- Development or production. -/
inductive Environment where
  | dev
  | prod
  deriving DecidableEq, Repr

namespace Environment

/-- The name of an environment. -/
def name : Environment → String
  | dev => "dev"
  | prod => "prod"

/-- Why a text names no environment. -/
def unsupported (s : String) : String :=
  s!"`{s}` is not a supported environment, expected `dev` or `prod`"

/-- The environment that a text names, in letters of either case and blanks at the ends apart. -/
def parse (raw : String) : Except String Environment :=
  let s := Text.lowercase (Text.trim raw)
  if s = dev.name then .ok dev
  else if s = prod.name then .ok prod
  else .error (unsupported s)

end Environment

end Tributary
