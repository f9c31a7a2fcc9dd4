import ConfigSnapshot.NixModule.Scan
import ConfigSnapshot.Text.Replace

/-!
# Moving the configuration under a snapshot key

The line that assigns the top-level `config` is made to assign `config.snapshot.<stem>`. At most
one line changes, and all else in the module, line ends included, stays as it is.
-/

namespace ConfigSnapshot
namespace NixModule

open Text

/-- The line with its assignment moved under the key for `stem`. -/
def moveLine (stem line : Text) : Text :=
  replaceFirst "config =".toList ("config.snapshot.".toList ++ stem ++ " =".toList) line

/-- The module after the move, or nothing if no line assigns the top-level `config`. -/
def moveConfig (t stem : Text) : Option Text :=
  (scan t).target.map fun i ↦ ((lines t).modify i (moveLine stem)).flatten

end NixModule
end ConfigSnapshot
