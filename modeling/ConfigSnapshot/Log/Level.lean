/-!
# Log levels
-/

namespace ConfigSnapshot
namespace Log

/-- How much detail a record gives, from the least to the most. -/
inductive Level
  | info
  | debug
  | trace
  deriving DecidableEq, Repr

/-- The word for a level in the log. -/
def Level.label : Level → String
  | .info => "INFO"
  | .debug => "DEBUG"
  | .trace => "TRACE"

end Log
end ConfigSnapshot
