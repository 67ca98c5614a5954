/-!
The specification of what is logged: a level, and levels of single modules after it.
-/

namespace Dataspace.LogSpec

/-- Levels of modules that say little of interest. -/
def defaultOverrides : String :=
  "hyper=info,reqwest=info,mio=info,r2d2=info"

/-- The specification for a level and overrides; `debug` beats the level. -/
def text (level overrides : String) (debug : Bool) : String :=
  let level := if debug then "debug" else level
  if overrides.isEmpty then level else level ++ "," ++ overrides

end Dataspace.LogSpec
