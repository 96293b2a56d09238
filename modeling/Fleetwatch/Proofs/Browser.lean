import Fleetwatch.Frontend.Browser

/-!
# No HTTP cache is a build behind

The service tells a client to ask again for everything but a file whose name carries its
content. So what one with an HTTP cache shows is what the deployed build has, whatever was
loaded before; a file that the build no longer has can still be shown, and is then the one of
that name. Of the file server it is assumed that an entity tag stands for one reply, and of the
build that a name with a content's hash has that content. The service worker the app registers
keeps files by rules of its own and is no part of this.
-/

namespace Fleetwatch.Frontend

open HttpCache Text

/-! ## What the service says -/

theorem mayKeep_cacheHeaders (path : List Char) (res : FileReply) :
    mayKeep (cacheHeaders path res).cacheControl =
      (isContentHashed path && !isFailure res.status) := by
  unfold cacheHeaders
  dsimp only
  split
  · rename_i kept
    rw [kept]
    decide
  · rename_i asked
    rw [Bool.not_eq_true] at asked
    rw [asked]
    decide

/-- A name with its content's hash has an ending. -/
theorem dot_mem_of_contentHashed {path : List Char} (hashed : isContentHashed path = true) :
    '.' ∈ lastSegment path := by
  unfold isContentHashed at hashed
  cases cut : splitLast '.' (lastSegment path) with
  | none => simp [cut] at hashed
  | some pieces =>
    obtain ⟨whole, -⟩ := splitLast_eq_some_iff.mp cut
    rw [whole]
    exact List.mem_append_right _ List.mem_cons_self

/-- The reply to a question under no tag. -/
def StaticDir.plain (build : StaticDir) (path : List Char) : FileReply :=
  staticService build { method := .get, path, ifNoneMatch := none }

/-- A build as an origin. -/
def originOf (build : StaticDir) : Origin (List Char) Shown String :=
  fun path => resourceOf (StaticDir.plain build path)

theorem serveDir_get (build : StaticDir) (path : List Char) :
    serveDir build { method := .get, path, ifNoneMatch := none } = build.find path := by
  unfold serveDir
  dsimp only
  cases build.find path with
  | none => rfl
  | some reply => rfl

theorem spa_status (index : Option String) (path : List Char) : (spa index path).status ≠ 304 := by
  unfold spa
  split
  · decide
  · split
    · show 200 ≠ 304
      decide
    · decide

theorem spa_etag (index : Option String) (path : List Char) : (spa index path).etag = none := by
  unfold spa
  split
  · rfl
  · split <;> rfl

theorem readReply_cacheHeaders {path : List Char} {res : FileReply} (whole : res.status ≠ 304) :
    readReply (cacheHeaders path res) = .full (resourceOf (cacheHeaders path res)) :=
  if_neg whole

/-- What is served of a file, or of none. -/
theorem plain_eq (build : StaticDir) (path : List Char) :
    StaticDir.plain build path =
      cacheHeaders path ((build.find path).getD (spa build.index path)) := by
  unfold StaticDir.plain staticService
  rw [serveDir_get]

theorem plain_status (build : StaticDir) (path : List Char) :
    (StaticDir.plain build path).status ≠ 304 := by
  rw [plain_eq]
  cases found : build.find path with
  | none => exact spa_status _ _
  | some reply => exact build.whole path reply found

/-- The service sends a build's own reply, or says that the copy under that tag has not changed
and may be kept as before. -/
theorem askFor_eq (build : StaticDir) (path : List Char) (tag : Option String) :
    askFor build path tag = sends (originOf build) path tag := by
  cases tag with
  | none => exact if_neg (plain_status build path)
  | some t =>
    unfold askFor sends originOf
    rw [plain_eq]
    unfold staticService serveDir
    dsimp only
    cases found : build.find path with
    | none =>
      have untagged : (resourceOf (cacheHeaders path (spa build.index path))).tag ≠ some t := by
        show (spa build.index path).etag ≠ some t
        rw [spa_etag]
        exact Option.some_ne_none t ∘ Eq.symm
      rw [Option.getD_none, if_neg untagged]
      exact readReply_cacheHeaders (spa_status _ _)
    | some reply =>
      dsimp only
      rw [Option.getD_some]
      by_cases same : reply.etag = some t
      · -- a 304 says of keeping what the whole reply says
        have success : reply.status = 200 := build.tagged path reply found (by rw [same]; rfl)
        have named : (resourceOf (cacheHeaders path reply)).tag = some t := same
        rw [if_pos ⟨rfl, same⟩, if_pos named, Option.getD_some]
        show Sent.notModified (mayKeep (cacheHeaders path _).cacheControl) =
          .notModified (mayKeep (cacheHeaders path reply).cacheControl)
        rw [mayKeep_cacheHeaders, mayKeep_cacheHeaders, success]
        rfl
      · have other : (resourceOf (cacheHeaders path reply)).tag ≠ some t := same
        rw [if_neg (fun both => same both.2), if_neg other, Option.getD_some]
        exact readReply_cacheHeaders (build.whole path reply found)

/-! ## A browser over any number of builds -/

/-- The builds of a run that started at one. -/
def builds (start : StaticDir) (events : List BrowserEvent) : List StaticDir :=
  start :: events.filterMap fun
    | .deploy build => some build
    | _ => none

/-- An entity tag stands for one reply to its path. -/
def TagsHonest (deployed : List StaticDir) : Prop :=
  ∀ build ∈ deployed, ∀ build' ∈ deployed, ∀ path t,
    (StaticDir.plain build path).etag = some t → (StaticDir.plain build' path).etag = some t →
      shownOf (StaticDir.plain build path) = shownOf (StaticDir.plain build' path)

/-- Files that have a name with a content's hash have that content. -/
def NamesHonest (deployed : List StaticDir) : Prop :=
  ∀ build ∈ deployed, ∀ build' ∈ deployed, ∀ path reply reply', isContentHashed path = true →
    build.find path = some reply → isFailure reply.status = false →
    build'.find path = some reply' → isFailure reply'.status = false →
      shownOf reply = shownOf reply'

def BrowserEvent.toEvent : BrowserEvent → HttpCache.Event (List Char) Shown String
  | .deploy build => .replace (originOf build)
  | .load path again => .load path again
  | .lose path => .lose path

/-- A browser of the service is a client of its builds. -/
structure Follows (b : Browser) (c : Client (List Char) Shown String) : Prop where
  origin : c.origin = originOf b.build
  copies : c.copies = b.copies

theorem follows_step {b : Browser} {c : Client (List Char) Shown String} (follows : Follows b c)
    (e : BrowserEvent) : Follows (browserStep b e) (HttpCache.step c e.toEvent) := by
  obtain ⟨origin, copies⟩ := follows
  cases e with
  | deploy build => exact ⟨rfl, copies⟩
  | load path again =>
    refine ⟨origin, ?_⟩
    have asked : askFor b.build path = sends (originOf b.build) path :=
      funext (askFor_eq b.build path)
    show Function.update c.copies path (look (sends c.origin path) again (c.copies path)) = _
    rw [origin, copies, ← asked]
    rfl
  | lose path =>
    refine ⟨origin, ?_⟩
    show Function.update c.copies path none = Function.update b.copies path none
    rw [copies]

theorem follows_after (start : StaticDir) (events : List BrowserEvent) :
    Follows (browserAfter start events)
      (Run.run HttpCache.step ⟨originOf start, fun _ => none⟩ (events.map BrowserEvent.toEvent)) := by
  have run : Follows (Run.run browserStep (Browser.initial start) events)
      (Run.run (fun c (e : BrowserEvent) => HttpCache.step c e.toEvent) ⟨originOf start, fun _ => none⟩
        events) :=
    Run.run_simulation Follows (fun _ _ e follows => follows_step follows e) events _ _ ⟨rfl, rfl⟩
  unfold Run.run at run ⊢
  rw [List.foldl_map]
  exact run

/-- A reply that may be kept is a file's, under a name with its content's hash. -/
theorem file_of_keep {build : StaticDir} {path : List Char}
    (keep : (originOf build path).keep = true) :
    isContentHashed path = true ∧ ∃ reply, build.find path = some reply ∧
      isFailure reply.status = false ∧ shownOf reply = (originOf build path).value := by
  have said : (isContentHashed path &&
      !isFailure ((build.find path).getD (spa build.index path)).status) = true := by
    rw [← mayKeep_cacheHeaders, ← plain_eq]
    exact keep
  obtain ⟨hashed, sound⟩ := Bool.and_eq_true_iff.mp said
  rw [Bool.not_eq_true'] at sound
  cases found : build.find path with
  | none =>
    -- a name with a hash has an ending, and the page is not served under one
    rw [found, Option.getD_none] at sound
    unfold spa at sound
    rw [if_pos (dot_mem_of_contentHashed hashed)] at sound
    cases sound
  | some reply =>
    rw [found, Option.getD_some] at sound
    refine ⟨hashed, reply, rfl, sound, ?_⟩
    show _ = shownOf (StaticDir.plain build path)
    rw [plain_eq, found]
    rfl

/-- A name with a content's hash is a file's, or there is nothing. -/
theorem file_of_contentHashed {build : StaticDir} {path : List Char}
    (hashed : isContentHashed path = true)
    (sound : isFailure (StaticDir.plain build path).status = false) :
    ∃ reply, build.find path = some reply ∧ isFailure reply.status = false ∧
      shownOf reply = shownOf (StaticDir.plain build path) := by
  have keep : (originOf build path).keep = true := by
    show mayKeep (StaticDir.plain build path).cacheControl = true
    rw [plain_eq] at sound ⊢
    rw [mayKeep_cacheHeaders, hashed]
    exact congrArg not sound
  exact (file_of_keep keep).2

/-- The builds a browser meets are the ones that were deployed. -/
theorem mem_builds_of_deploy {start : StaticDir} {events : List BrowserEvent} {build : StaticDir}
    (deployed : BrowserEvent.deploy build ∈ events) : build ∈ builds start events :=
  List.mem_cons_of_mem _ (List.mem_filterMap.mpr ⟨_, deployed, rfl⟩)

theorem build_mem_builds (start : StaticDir) (events : List BrowserEvent) :
    (browserAfter start events).build ∈ builds start events := by
  refine Run.run_invariant (fun b : Browser => b.build ∈ builds start events) ?_ events
    (Browser.initial start) (fun e member => member) List.mem_cons_self
  intro b e member among
  cases e with
  | deploy build => exact mem_builds_of_deploy member
  | load path again => exact among
  | lose path => exact among

/-- Whatever was deployed, loaded and lost before, a load shows what the deployed build serves
for the path. Only where that is an error for a name with a content's hash may the browser show
the file of that name of another build. -/
theorem never_a_build_behind (start : StaticDir) (events : List BrowserEvent)
    (tags : TagsHonest (builds start events)) (names : NamesHonest (builds start events))
    (path : List Char) (again : Bool) :
    ∃ shown, (browserAfter start events).shows path again = some shown ∧
      (shown = shownOf (StaticDir.plain (browserAfter start events).build path) ∨
        isContentHashed path = true ∧
          isFailure (StaticDir.plain (browserAfter start events).build path).status = true ∧
          ∃ build ∈ builds start events, ∃ reply, build.find path = some reply ∧
            isFailure reply.status = false ∧ shown = shownOf reply) := by
  have honest : Honest (fun o => ∃ build ∈ builds start events, o = originOf build) := by
    rintro _ ⟨build, member, rfl⟩ _ ⟨build', member', rfl⟩ k t tag tag'
    exact tags build member build' member' k t tag tag'
  have permitted : ∀ e ∈ events.map BrowserEvent.toEvent, ∀ o, e = .replace o →
      ∃ build ∈ builds start events, o = originOf build := by
    intro e member o replaces
    obtain ⟨event, inEvents, rfl⟩ := List.mem_map.mp member
    cases event with
    | deploy build =>
      exact ⟨build, mem_builds_of_deploy inEvents, (HttpCache.Event.replace.inj replaces).symm⟩
    | load path again => cases replaces
    | lose path => cases replaces
  obtain ⟨value, looked, cases⟩ := shown_run honest ⟨start, List.mem_cons_self, rfl⟩ permitted
    path again
  obtain ⟨origin, copies⟩ := follows_after start events
  have shows : (browserAfter start events).shows path again = some value := by
    rw [← looked]
    unfold Browser.shows HttpCache.shown
    rw [origin, copies, funext (askFor_eq (browserAfter start events).build path)]
  refine ⟨value, shows, ?_⟩
  rcases cases with now | ⟨_, ⟨build, member, rfl⟩, rfl, keep⟩
  · rw [now, origin]
    exact Or.inl rfl
  · obtain ⟨hashed, reply, found, sound, same⟩ := file_of_keep keep
    cases failed : isFailure (StaticDir.plain (browserAfter start events).build path).status with
    | true => exact Or.inr ⟨hashed, rfl, build, member, reply, found, sound, same.symm⟩
    | false =>
      obtain ⟨reply', found', sound', same'⟩ := file_of_contentHashed hashed failed
      refine Or.inl (same.symm.trans (.trans ?_ same'))
      exact names build member _ (build_mem_builds start events) path reply reply' hashed
        found sound found' sound'

/-- A build with a page and one script. -/
def oneScript (name : List Char) (body tag : String) : StaticDir where
  find path :=
    if path = name then
      some { status := 200, contentType := some "text/javascript", body, etag := some tag
             cacheControl := none }
    else none
  index := some body
  whole := by
    intro path reply found
    split at found
    · obtain rfl := Option.some.inj found
      show 200 ≠ 304
      decide
    · cases found
  tagged := by
    intro path reply found _
    split at found
    · obtain rfl := Option.some.inj found
      rfl
    · cases found

def firstBuild : StaticDir := oneScript "/main-4E6MULDR.js".toList "one" "1"

def secondBuild : StaticDir := oneScript "/main-7GNM4EPX.js".toList "two" "2"

/-- The page and its script are loaded, and then there is another build. -/
def sampleBrowsing : List BrowserEvent :=
  [.load "/problems".toList false, .load "/main-4E6MULDR.js".toList false, .deploy secondBuild]

theorem etag_oneScript {name path : List Char} {body tag t : String}
    (named : (StaticDir.plain (oneScript name body tag) path).etag = some t) :
    path = name ∧ t = tag := by
  rw [plain_eq] at named
  unfold oneScript at named
  dsimp only at named
  split at named
  · rename_i same
    exact ⟨same, (Option.some.inj named).symm⟩
  · have untagged : (spa (some body) path).etag = some t := named
    rw [spa_etag] at untagged
    cases untagged

theorem find_oneScript {name path : List Char} {body tag : String} {reply : FileReply}
    (found : (oneScript name body tag).find path = some reply) : path = name := by
  unfold oneScript at found
  dsimp only at found
  split at found
  · rename_i same
    exact same
  · cases found

theorem never_a_build_behind_sample :
    (∃ shown, (browserAfter firstBuild sampleBrowsing).shows "/main-4E6MULDR.js".toList false =
        some shown) ∧
      ((browserAfter firstBuild sampleBrowsing).shows "/main-4E6MULDR.js".toList false).map
        Shown.body = some "one" ∧
      ((browserAfter firstBuild sampleBrowsing).shows "/problems".toList false).map
        Shown.body = some "two" := by
  have deployed : builds firstBuild sampleBrowsing = [firstBuild, secondBuild] := rfl
  have tags : TagsHonest (builds firstBuild sampleBrowsing) := by
    rw [deployed]
    intro build member build' member' path t named named'
    simp only [List.mem_cons, List.not_mem_nil, or_false] at member member'
    rcases member with rfl | rfl <;> rcases member' with rfl | rfl
    · rfl
    · have clash := (etag_oneScript named).2.symm.trans (etag_oneScript named').2
      exact absurd clash (by decide)
    · have clash := (etag_oneScript named).2.symm.trans (etag_oneScript named').2
      exact absurd clash (by decide)
    · rfl
  have names : NamesHonest (builds firstBuild sampleBrowsing) := by
    rw [deployed]
    intro build member build' member' path reply reply' _ found _ found' _
    simp only [List.mem_cons, List.not_mem_nil, or_false] at member member'
    rcases member with rfl | rfl <;> rcases member' with rfl | rfl
    · rw [Option.some.inj (found.symm.trans found')]
    · have clash := (find_oneScript found).symm.trans (find_oneScript found')
      exact absurd clash (by decide)
    · have clash := (find_oneScript found).symm.trans (find_oneScript found')
      exact absurd clash (by decide)
    · rw [Option.some.inj (found.symm.trans found')]
  obtain ⟨shown, shows, -⟩ := never_a_build_behind firstBuild sampleBrowsing tags names
    "/main-4E6MULDR.js".toList false
  exact ⟨⟨shown, shows⟩, by decide +kernel, by decide +kernel⟩

end Fleetwatch.Frontend
