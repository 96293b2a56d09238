import Fleetwatch.Config
import Fleetwatch.Lib.Urlencoded
import Fleetwatch.PendingLogin

/-!
# Nextcloud, for identity only

`src/nextcloud/identity.rs`: where a browser is sent to grant access, and who Nextcloud
says it is. What Nextcloud answers is an argument.
-/

namespace Fleetwatch

open Urlencoded

/-- The form `authorize_url` appends. -/
def authorizePairs (cfg : Config) (state : String) : List Pair :=
  [("client_id".toList, cfg.ncClientId.toList),
    ("response_type".toList, "code".toList),
    ("redirect_uri".toList, cfg.ncRedirectUri.toList),
    ("state".toList, state.toList)]

/-- `query_pairs_mut().append_pair` of every pair: after what the query holds already. -/
def appendPairs (query : Option String) (pairs : List Pair) : List Char :=
  let held := (query.getD "").toList
  if held = [] then write pairs else held ++ '&' :: write pairs

/-- `authorize_url`: nothing where its URL does not parse and the handler panics. -/
def authorizeUrl (parseUrl : String → Option ParsedUrl) (cfg : Config) (state : String) :
    Option String := do
  let url ← parseUrl s!"{cfg.ncBaseUrl}/index.php/apps/oauth2/authorize"
  let fragment := match url.fragment with
    | some f => '#' :: f.toList
    | none => []
  return String.ofList (url.beforeQuery.toList ++
    '?' :: appendPairs url.query (authorizePairs cfg state) ++ fragment)

/-- `NcUser`. -/
structure NcUser where
  id : String
  displayName : String
  deriving DecidableEq, Repr

/-- What Nextcloud answers to the code of a callback: `exchange_code` redeems it, `fetch_user`
asks whose it is. Nothing where either fails. The proof is spent on the exchange. -/
def identify (redeem : String → Option NcUser) (code : String) (_proof : StateMatched) :
    Option NcUser :=
  redeem code

end Fleetwatch
