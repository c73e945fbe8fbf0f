import Mathlib.Init

/-!
# The two cameras
-/

namespace NaoSoccer

/-- The top or the bottom camera. -/
inductive CameraType
  | top
  | bottom
  deriving DecidableEq, Repr

/-- `Camera::c_str` -/
def CameraType.c_str : CameraType → String
  | top => "Top"
  | bottom => "Bottom"

end NaoSoccer
