import Fleetwatch.Lib.HttpCache
import Fleetwatch.Routes.Router

/-!
# The static service

What `router` of `src/routes/mod.rs` puts under every other path: the built app, served by
tower-http's `ServeDir` and, where that finds no file, by `spa`, both behind `cache_headers`.
-/

namespace Fleetwatch

open Text

/-! ## Names -/

/-- `rsplit('/').next()`. -/
def lastSegment (path : List Char) : List Char :=
  match splitLast '/' path with
  | some (_, name) => name
  | none => path

/-- `is_content_hashed`: bytes that are upper-case letters or digits are as many characters. -/
def isContentHashed (path : List Char) : Bool :=
  match splitLast '.' (lastSegment path) with
  | none => false
  | some (stem, _) =>
    match splitLast '-' stem with
    | none => false
    | some (_, hash) => hash.length = 8 && hash.all (fun c => c.isUpper || c.isDigit)

/-! ## Files -/

/-- What the static service reads of a request. -/
structure FileRequest where
  method : Method
  path : List Char
  ifNoneMatch : Option String

structure FileReply where
  status : Nat
  contentType : Option String
  body : String
  etag : Option String
  cacheControl : Option String
  deriving DecidableEq, Repr

/-- The directory of a build: what `ServeDir` finds at a path, and the text of the index where
it can be read. A file is tagged and served whole, and only a file is. -/
structure StaticDir where
  find : List Char → Option FileReply
  index : Option String
  whole : ∀ path reply, find path = some reply → reply.status ≠ 304
  tagged : ∀ path reply, find path = some reply → reply.etag.isSome → reply.status = 200

/-- `ServeDir`, nothing where it calls its fallback. -/
def serveDir (dir : StaticDir) (r : FileRequest) : Option FileReply :=
  match r.method with
  | .get | .head =>
    match dir.find r.path with
    | none => none
    | some reply =>
      if r.ifNoneMatch.isSome ∧ reply.etag = r.ifNoneMatch then
        some { status := 304, contentType := none, body := "", etag := reply.etag,
               cacheControl := none }
      else some reply
  | _ =>
    some { status := 405, contentType := none, body := "", etag := none, cacheControl := none }

/-- `spa`. -/
def spa (index : Option String) (path : List Char) : FileReply :=
  if '.' ∈ lastSegment path then
    { status := 404, contentType := some "text/plain; charset=utf-8", body := "not found"
      etag := none, cacheControl := none }
  else
    match index with
    | some page =>
      { status := 200, contentType := some "text/html; charset=utf-8", body := page
        etag := none, cacheControl := none }
    | none =>
      { status := 500, contentType := some "text/plain; charset=utf-8", body := "no index"
        etag := none, cacheControl := none }

/-- A client's error or the server's. -/
def isFailure (status : Nat) : Bool := 400 ≤ status && status < 600

/-- `cache_headers`. -/
def cacheHeaders (path : List Char) (res : FileReply) : FileReply :=
  let value :=
    if isContentHashed path && !isFailure res.status then "public, max-age=31536000, immutable"
    else "no-cache"
  { res with cacheControl := some value }

def staticService (dir : StaticDir) (r : FileRequest) : FileReply :=
  cacheHeaders r.path ((serveDir dir r).getD (spa dir.index r.path))

/-- What answers where no route does: the static service, or axum's own 404 without one. -/
def fallback (cfg : Config) (dirs : String → StaticDir) (r : FileRequest) : FileReply :=
  match cfg.staticDir with
  | some dir => staticService (dirs dir) r
  | none =>
    { status := 404, contentType := none, body := "", etag := none, cacheControl := none }

end Fleetwatch
