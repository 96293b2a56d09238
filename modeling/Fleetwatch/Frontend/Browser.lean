import Fleetwatch.Routes.Static

/-!
# The app in a browser

A browser keeps what it was served, as the service told it to, while one build after another
is deployed.
-/

namespace Fleetwatch.Frontend

open HttpCache Text

/-- May a browser show a reply again without asking? Where nothing is said, it may. -/
def mayKeep : Option String → Bool
  | none => true
  | some said => (split ',' said.toList).all (fun d => trim (String.ofList d) ≠ "no-cache")

/-- What is shown of a reply. -/
structure Shown where
  status : Nat
  contentType : Option String
  body : String
  deriving DecidableEq, Repr

def shownOf (r : FileReply) : Shown :=
  { status := r.status, contentType := r.contentType, body := r.body }

def resourceOf (r : FileReply) : Resource Shown String :=
  { value := shownOf r, keep := mayKeep r.cacheControl, tag := r.etag }

/-- What a browser makes of a reply. -/
def readReply (r : FileReply) : Sent Shown String :=
  if r.status = 304 then .notModified (mayKeep r.cacheControl) else .full (resourceOf r)

/-- A browser's question for a path, under the tag of its copy. -/
def askFor (build : StaticDir) (path : List Char) (tag : Option String) : Sent Shown String :=
  readReply (staticService build { method := .get, path, ifNoneMatch := tag })

/-- A browser, and the build that is deployed. -/
structure Browser where
  build : StaticDir
  copies : Copies (List Char) Shown String

inductive BrowserEvent where
  | deploy (build : StaticDir)
  /-- A path is loaded; `again` where the browser asks though it need not. -/
  | load (path : List Char) (again : Bool)
  /-- The browser gives up its copy. -/
  | lose (path : List Char)

def browserStep (b : Browser) : BrowserEvent → Browser
  | .deploy build => { b with build }
  | .load path again =>
    { b with copies :=
        Function.update b.copies path (look (askFor b.build path) again (b.copies path)) }
  | .lose path => { b with copies := Function.update b.copies path none }

/-- A browser that has nothing yet. -/
def Browser.initial (build : StaticDir) : Browser := { build, copies := fun _ => none }

def browserAfter (start : StaticDir) (events : List BrowserEvent) : Browser :=
  Run.run browserStep (Browser.initial start) events

/-- What a load shows. -/
def Browser.shows (b : Browser) (path : List Char) (again : Bool) : Option Shown :=
  (look (askFor b.build path) again (b.copies path)).map Resource.value

end Fleetwatch.Frontend
