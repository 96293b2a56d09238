import Fleetwatch.Lib.Urlencoded
import Fleetwatch.Routes.Router

/-!
# What the app asks for

The requests of the frontend: `features/history/history.ts`, `features/report/report.ts`,
`retirements.ts` and `auth-redirect.interceptor.ts`. A browser resolves what a
script names against the page's site, its dot segments aside, and sends path and query as
they are then written; the fragment stays behind.
-/

namespace Fleetwatch.Frontend

open Urlencoded Whatwg

variable {Host : Type}

/-! ## The browser -/

/-- `location.pathname`. -/
def pathname (u : Url Host) : List Char := u.path.flatMap (fun s => '/' :: encode inPathSet s)

/-- `location.search`: an empty query reads as none. -/
def search (u : Url Host) : List Char :=
  match u.query with
  | some (c :: rest) => '?' :: encode inSpecialQuerySet (c :: rest)
  | _ => []

/-- The request line for a URL. -/
def requestLine (method : Method) (u : Url Host) : Target :=
  { method, path := pathname u, query := u.query.map (encode inSpecialQuerySet) }

/-- The request for what a script on a page of the site names. Nothing where it cannot be read
or is another site's. -/
def ask [DecidableEq Host] (authority : Authority Host) (site : Origin Host) (method : Method)
    (reference : List Char) : Option Target :=
  ((join authority site reference).filter (fun u => u.origin = site)).map (requestLine method)

/-! ## The requests -/

/-- The URL `History` fetches, once it has all four parts. -/
def historyReference (source collector sect label : String) : Option (List Char) :=
  if source = "" ∨ collector = "" ∨ sect = "" ∨ label = "" then none
  else some ("/api/history?".toList ++ write
    [("source".toList, source.toList), ("collector".toList, collector.toList),
      ("section".toList, sect.toList), ("label".toList, label.toList)])

/-- The URL `Report` fetches. -/
def reportReference (id : String) : List Char :=
  "/api/reports/".toList ++ encodeComponent id.toList

/-- `RetirementsApi.remove`. -/
def retirementReference (source collector : String) : List Char :=
  "/api/retirements/".toList ++ encodeComponent source.toList ++
    '/' :: encodeComponent collector.toList

/-- `authRedirectInterceptor`: where a 401 sends the page. -/
def signInReference (page : Url Host) : List Char :=
  "/login?return_to=".toList ++ encodeComponent (pathname page ++ search page)

end Fleetwatch.Frontend
