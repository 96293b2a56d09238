import Fleetwatch.Lib.Bytes
import Fleetwatch.Lib.Text

/-!
# Ingest authentication

`src/auth.rs`: the bearer token of a request stands for the source it may write as, or
for a reader, who has no identity. A header map is its entries, each a lower-case name and
the bytes of its value.
-/

namespace Fleetwatch

open Bytes Text

abbrev HeaderMap := List (String × List UInt8)

def AUTHORIZATION : String := "authorization"

/-- `HeaderMap::get`: the first value under the name. -/
def HeaderMap.get (headers : HeaderMap) (name : String) : Option (List UInt8) :=
  (headers.find? (fun entry => entry.1 = name)).map Prod.snd

/-- What `HeaderValue::to_str` accepts: visible ASCII, space and tab. -/
def isVisible (b : UInt8) : Bool := (32 ≤ b && b < 127) || b == 9

/-- `HeaderValue::to_str`. -/
def toStr (value : List UInt8) : Option (List Char) :=
  if value.all isVisible then some (value.map (fun b => Char.ofNat b.toNat)) else none

/-- `ct_eq`: every byte is compared, whatever the ones before it were. -/
def ctEq (a b : List UInt8) : Bool :=
  if a.length ≠ b.length then false
  else (a.zip b).foldl (fun diff (x, y) => diff ||| (x ^^^ y)) 0 == 0

/-- `bearer`: the token of an `Authorization: Bearer <token>` header. -/
def bearer (headers : HeaderMap) : Option String := do
  let value ← headers.get AUTHORIZATION
  let raw ← toStr value
  let token ← (raw.dropPrefix? "Bearer ".toList).orElse (fun _ => raw.dropPrefix? "bearer ".toList)
  let token := trim (String.ofList token)
  if token = "" then none else some token

/-- `authenticate_read`: every read token is compared; no list of them admits a request
without one. -/
def authenticateRead (headers : HeaderMap) (readTokens : List String) : Bool :=
  match bearer headers with
  | none => false
  | some presented => readTokens.foldl (fun ok token =>
    if ctEq (utf8 presented.toList) (utf8 token.toList) then true else ok) false

/-- `authenticate`: every pair is compared, and the last that matches decides. -/
def authenticate (headers : HeaderMap) (tokens : List (String × String)) : Option String := do
  let presented ← bearer headers
  tokens.foldl (fun matched (source, token) =>
    if ctEq (utf8 presented.toList) (utf8 token.toList) then some source else matched) none

end Fleetwatch
