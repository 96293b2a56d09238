import Fleetwatch.Lib.Url

/-!
# Where a login lands

`validate_return_to` of `src/routes/auth.rs`. Reading hosts is the `url` crate's and the
browser's, both after the WHATWG standard.
-/

namespace Fleetwatch

open Whatwg

/-- The reader of hosts, and what it makes of the fixed URL: `https://site.invalid/`. -/
structure Web (Host : Type) where
  authority : Authority Host
  site : Origin Host
  fixed : authority "site.invalid/".toList = some (site, ['/'])

variable {Host : Type} [DecidableEq Host]

/-- `validate_return_to`: the path as the parser resolves it, or the root. -/
def validateReturnTo (web : Web Host) (returnTo : Option String) : String :=
  let asked := returnTo.filter (fun p => p.toList.head? = some '/')
  match asked.bind (fun p => join web.authority web.site p.toList) with
  | some dest => if dest.origin = web.site then String.ofList (fromPath dest) else "/"
  | none => "/"

/-- The path of a destination that passes, as it is written. -/
def Web.passedPath (web : Web Host) (p : String) : Option (List Segment) :=
  if p.toList.head? = some '/' then
    (locate web.authority web.site (clean p.toList)).bind (fun (origin, text) =>
      if origin = web.site then some (segments (pathText text)) else none)
  else none

end Fleetwatch
