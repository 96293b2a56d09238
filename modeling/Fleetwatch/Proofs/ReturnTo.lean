import Fleetwatch.Routes.Auth

/-!
# Where a browser takes the destination

The destination is resolved twice: by `validate_return_to`, and from its path on by the
browser. What the first pass writes is read back at any site unless it begins with two
slashes, which then name a host. It does so exactly when an empty segment of the path is
left at the root with something after it.
-/

namespace Fleetwatch

open Whatwg

variable {Host : Type}

/-- A browser on a site that follows the location stays on the site. -/
def Lands (web : Web Host) (site : Origin Host) (location : String) : Prop :=
  ∃ dest, join web.authority site location.toList = some dest ∧ dest.origin = site

theorem lands_root (web : Web Host) (site : Origin Host) : Lands web site "/" :=
  ⟨ofPath site [], rfl, rfl⟩

/-- A path that opens with no empty segment, or with that alone, is read at every site. -/
theorem lands_fromPath {web : Web Host} {origin : Origin Host} {text : List Char}
    (closed : ¬ EmptyAtRoot (segments (pathText text))) (site : Origin Host) :
    Lands web site (String.ofList (fromPath (ofPath origin text))) := by
  have free : ∀ s ∈ (ofPath origin text).path, ∀ c ∈ s, isSlash c = false := by
    intro s member c inner
    rcases mem_removeDots member with written | rfl
    · exact not_isSlash_of_mem_segments written inner
    · cases inner
  obtain ⟨rest, read⟩ := join_fromPath_of_not_opens
    (removeDots_ne_nil (List.splitOnP_ne_nil _ _)) free
    (fun opens => closed (removeDots_opens_iff.mp opens)) web.authority site
  exact ⟨_, by rw [String.toList_ofList]; exact read, rfl⟩

/-- One that opens with an empty segment and another is read at one site at most. -/
theorem lands_fromPath_unique {web : Web Host} {origin : Origin Host} {text : List Char}
    (opens : EmptyAtRoot (segments (pathText text))) {site site' : Origin Host}
    (here : Lands web site (String.ofList (fromPath (ofPath origin text))))
    (there : Lands web site' (String.ofList (fromPath (ofPath origin text)))) :
    site = site' := by
  obtain ⟨t, more, first⟩ := removeDots_opens_iff.mpr opens
  obtain ⟨rest, read⟩ := join_fromPath_of_opens (u := ofPath origin text) first
  obtain ⟨dest, followed, own⟩ := here
  obtain ⟨dest', followed', own'⟩ := there
  rw [String.toList_ofList, read web.authority] at followed followed'
  obtain rfl := Option.some.inj (followed.symm.trans followed')
  exact own.symm.trans own'

variable [DecidableEq Host]

/-- A destination that passes is written from its path on, any other is the root. -/
theorem validateReturnTo_cases (web : Web Host) (p : String) :
    (web.passedPath p = none ∧ validateReturnTo web (some p) = "/") ∨
    ∃ text, web.passedPath p = some (segments (pathText text)) ∧
      validateReturnTo web (some p) = String.ofList (fromPath (ofPath web.site text)) := by
  unfold Web.passedPath validateReturnTo join
  by_cases begins : p.toList.head? = some '/'
  · rw [if_pos begins, Option.filter_some_pos (by simpa using begins)]
    dsimp only [Option.bind_some]
    cases located : locate web.authority web.site (clean p.toList) with
    | none => exact .inl ⟨rfl, rfl⟩
    | some found =>
      obtain ⟨origin, text⟩ := found
      dsimp only [Option.bind_some, Option.map_some, ofPath]
      by_cases same : origin = web.site
      · rw [if_pos same, if_pos same, same]
        exact .inr ⟨text, rfl, rfl⟩
      · rw [if_neg same, if_neg same]
        exact .inl ⟨rfl, rfl⟩
  · rw [if_neg begins, Option.filter_some_neg (by simpa using begins)]
    exact .inl ⟨rfl, rfl⟩

/-- A login lands on the site it started from, whichever that is, exactly when the path that
passes leaves no empty segment at the root with something after it. -/
theorem validateReturnTo_lands_iff (web : Web Host) (p : String) :
    (∀ site, Lands web site (validateReturnTo web (some p))) ↔
      ∀ path, web.passedPath p = some path → ¬ EmptyAtRoot path := by
  rcases validateReturnTo_cases web p with ⟨refused, root⟩ | ⟨text, passed, written⟩
  · rw [root]
    constructor
    · intro _ path passed
      rw [refused] at passed
      cases passed
    · exact fun _ site => lands_root web site
  · rw [written]
    constructor
    · rintro everywhere path given opens
      obtain rfl := Option.some.inj (passed.symm.trans given)
      have same := lands_fromPath_unique opens (everywhere ⟨web.site.host, 0⟩)
        (everywhere ⟨web.site.host, 1⟩)
      cases same
    · intro closed site
      exact lands_fromPath (closed _ passed) site

/-- Hosts of lower-case letters, dots and hyphens, at the default port. -/
def plainAuthority (text : List Char) : Option (Origin (List Char) × List Char) :=
  let text := text.dropWhile isSlash
  let host := text.takeWhile (fun c => !isSlash c && c ≠ '?' && c ≠ '#')
  if host ≠ [] && host.all (fun c => c.isLower || c = '.' || c = '-') then
    some (⟨host, 443⟩, text.drop host.length)
  else none

def plainWeb : Web (List Char) where
  authority := plainAuthority
  site := ⟨"site.invalid".toList, 443⟩
  fixed := by decide +kernel

/-- A dot segment before two slashes passes, and what is left of it names another host. -/
theorem validateReturnTo_dot_slash_slash :
    validateReturnTo plainWeb (some "/.//evil.example") = "//evil.example" ∧
      (join plainWeb.authority ⟨"fleetwatch.example".toList, 443⟩ "//evil.example".toList).map
        Url.origin = some ⟨"evil.example".toList, 443⟩ ∧
      ¬ Lands plainWeb ⟨"fleetwatch.example".toList, 443⟩
        (validateReturnTo plainWeb (some "/.//evil.example")) := by
  have written : validateReturnTo plainWeb (some "/.//evil.example") = "//evil.example" := by
    decide +kernel
  have followed : (join plainWeb.authority ⟨"fleetwatch.example".toList, 443⟩
      "//evil.example".toList).map Url.origin = some ⟨"evil.example".toList, 443⟩ := by
    decide +kernel
  refine ⟨written, followed, ?_⟩
  rintro ⟨dest, read, own⟩
  rw [written] at read
  rw [read, Option.map_some, own] at followed
  exact absurd (Option.some.inj followed) (by decide)

end Fleetwatch
