import Fleetwatch.Lib.Changes
import Fleetwatch.Proofs.Alerting
import Fleetwatch.Proofs.Readers
import Fleetwatch.Proofs.RetentionRow
import Fleetwatch.Watched

/-!
# The phone keeps up with the board

A watcher that looks at the board itself knows which entries it was last told of, and is told
again when there are others. The phone sees a text, keeps one string, and may be cut off or
forbidden to post; it does what the watcher does, whatever goes on at the service meanwhile.
-/

namespace Fleetwatch

open Android (KString Device Phone Shade Alert)
open Changes (changes changes_concat key_getLast_changes)
open Chrono (DateTime)
open Code Utf16

/-! ## One exchange -/

section

variable {Host : Type} [DecidableEq Host] (app : AppState Host) (written : Body → KString)

/-- The board a poll asks for. -/
def boardAt (visit : Visit) (process : Process) : Problems :=
  problems app.env visit.now.nanos process.server.store.db

/-- The request arrives with a token the service knows, and the answer comes back. -/
def getsThrough (readToken : String) (visit : Visit) : Bool :=
  visit.reached && visit.answered &&
    authenticateRead (pollRequest readToken visit.now).headers app.cfg.readTokens

theorem serve_poll (readToken : String) (now : DateTime) (server : Server) :
    serve app (pollRequest readToken now) server =
      (if authenticateRead (pollRequest readToken now).headers app.cfg.readTokens then
        some (.plain 200 (.problems (problems app.env now.nanos server.store.db)))
      else some AppError.unauthorized.intoResponse, server) := by
  show forReader app (pollRequest readToken now) server _ = _
  unfold forReader
  cases authenticateRead (pollRequest readToken now).headers app.cfg.readTokens with
  | false => rfl
  | true => rfl

/-- A poll leaves the service as it was. -/
theorem exchange_server (visit : Visit) (readToken : String) (server : Server) :
    (exchange app written visit readToken server).2 = server := by
  unfold exchange
  split
  · rw [serve_poll app]
  · rfl

theorem fetch_exchange (visit : Visit) (readToken : String) (process : Process) :
    Android.fetch (exchange app written visit readToken process.server).1 =
      if getsThrough app readToken visit then some (written (.problems (boardAt app visit process)))
      else none := by
  unfold exchange getsThrough
  cases visit.reached with
  | false => rfl
  | true =>
    rw [if_pos rfl, serve_poll app]
    cases visit.answered with
    | false => rfl
    | true =>
      cases known : authenticateRead (pollRequest readToken visit.now).headers app.cfg.readTokens with
      | false => rfl
      | true => rfl

omit [DecidableEq Host] in
theorem getsThrough_empty (visit : Visit) : getsThrough app "" visit = false := by
  have unread : bearer [(AUTHORIZATION, Bytes.utf8 ("Bearer ".toList ++ "".toList))] = none := by
    decide +kernel
  unfold getsThrough authenticateRead pollRequest
  dsimp only
  rw [unread, Bool.and_false]

end

/-! ## The watcher -/

/-- One who looks at the board: what it was last told of, and its shade. -/
structure Watcher where
  told : Multiset Android.Entry
  shade : Shade

/-- A look at what is worth telling. -/
def Watcher.look (permits : Bool) (alerting : Android.Problems) (w : Watcher) : Watcher :=
  if alerting.entries = 0 then { told := 0, shade := w.shade.cancel }
  else if alerting.entries = w.told then w
  else if permits then { told := alerting.entries, shade := w.shade.notify alerting.alert }
  else w

section

variable {jsonArray : List KString → KString}

/-- The mark stands for the entries the watcher was told of. -/
def Marks (jsonArray : List KString → KString) (mark : KString) (told : Multiset Android.Entry) : Prop :=
  ∀ p : Android.Problems, p.fingerprint jsonArray = mark ↔ p.entries = told

theorem isEmpty_iff_entries (p : Android.Problems) : p.isEmpty = true ↔ p.entries = 0 := by
  rw [Android.Problems.isEmpty_iff]
  exact (Multiset.coe_eq_zero _).symm

theorem marks_fingerprint (self : SelfDelimiting jsonArray) (p : Android.Problems) :
    Marks jsonArray (p.fingerprint jsonArray) p.entries :=
  fun q => Android.fingerprint_eq_iff self q p

theorem marks_nothing (self : SelfDelimiting jsonArray) : Marks jsonArray [] 0 := by
  intro p
  rw [Android.fingerprint_eq_nil_iff self, isEmpty_iff_entries]

/-- A look and a run of the worker that reads the same do the same. -/
theorem doWork_look (self : SelfDelimiting jsonArray) (device : Device) {org : OrgJson}
    {answer : Option (Nat × KString)} {problems : Android.Problems} {phone : Phone} {w : Watcher}
    (set : phone.readToken ≠ "")
    (read : (Android.fetch answer).bind (Android.Problems.parse org) = some problems)
    (marks : Marks jsonArray phone.mark w.told) (shade : phone.shade = w.shade) :
    let phone' := (Android.ProblemsWorker.doWork jsonArray org device answer phone).2
    let w' := w.look device.permits problems.notifiable
    phone'.readToken = phone.readToken ∧ phone'.shade = w'.shade ∧
      Marks jsonArray phone'.mark w'.told := by
  have here := marks problems.notifiable
  have empty := isEmpty_iff_entries problems.notifiable
  unfold Android.ProblemsWorker.doWork Watcher.look Android.poll
  rw [if_neg set, read]
  dsimp only
  unfold Android.step
  by_cases nothing : problems.notifiable.entries = 0
  · rw [if_pos (empty.mpr nothing), if_pos nothing]
    refine ⟨rfl, by rw [shade]; rfl, ?_⟩
    rw [← nothing]
    exact marks_fingerprint self problems.notifiable
  · rw [if_neg (mt empty.mp nothing), if_neg nothing]
    by_cases same : problems.notifiable.entries = w.told
    · rw [if_pos (here.mpr same), if_pos same]
      exact ⟨rfl, shade, marks⟩
    · rw [if_neg (mt here.mp same), if_neg same]
      cases permits : device.permits with
      | false =>
        simp only [Android.act, Android.notify, permits, Bool.false_eq_true, if_false,
          Android.remembered]
        exact ⟨trivial, shade, marks⟩
      | true =>
        simp only [Android.act, Android.notify, permits, if_true, Android.remembered, shade]
        exact ⟨trivial, trivial, marks_fingerprint self problems.notifiable⟩

/-- A run that reads nothing changes nothing. -/
theorem doWork_unread {org : OrgJson} {device : Device} {answer : Option (Nat × KString)}
    {phone : Phone} (unread : (Android.fetch answer).bind (Android.Problems.parse org) = none) :
    (Android.ProblemsWorker.doWork jsonArray org device answer phone).2 = phone := by
  unfold Android.ProblemsWorker.doWork
  rw [unread]
  split
  · rfl
  · rfl

end

/-! ## The two side by side -/

/-- A service, and a watcher that looks at its board. -/
structure Overseen where
  process : Process
  watcher : Watcher

def Overseen.initial : Overseen :=
  { process := Process.initial, watcher := { told := 0, shade := ⟨none, []⟩ } }

section

variable {Host : Type} [DecidableEq Host] (app : AppState Host) (readToken : String)

/-- What the watcher does where a poll gets through. -/
def overseenStep (o : Overseen) : Moment → Overseen
  | .service event => { o with process := processStep app o.process event }
  | .poll visit =>
    let alerting := (boardAt app visit o.process).received.notifiable
    if getsThrough app readToken visit then
      { o with watcher := o.watcher.look visit.device.permits alerting }
    else o
  | .dismissed => { o with watcher := { o.watcher with shade := o.watcher.shade.cancel } }

theorem overseenStep_poll (o : Overseen) (visit : Visit) :
    overseenStep app readToken o (.poll visit) =
      if getsThrough app readToken visit then
        { o with watcher := o.watcher.look visit.device.permits
                   (boardAt app visit o.process).received.notifiable }
      else o := rfl

def overseenAfter (moments : List Moment) : Overseen :=
  Run.run (overseenStep app readToken) Overseen.initial moments

/-- The boards the polls of a run ask for. -/
def boardsAlong : Process → List Moment → List Problems
  | _, [] => []
  | process, .service event :: rest => boardsAlong (processStep app process event) rest
  | process, .poll visit :: rest => boardAt app visit process :: boardsAlong process rest
  | process, .dismissed :: rest => boardsAlong process rest

variable (instant : InstantCodec) (round : Int → Int)
  {jsonArray : List KString → KString} (org : OrgJson) (written : Body → KString)

/-- The phone reads the text of a board as its document. -/
def Legible (board : Problems) : Prop :=
  org.read (written (.problems board)) = some ((board.wire instant).toTree round)

/-- The phone stands where the watcher does. -/
structure Sees (jsonArray : List KString → KString) (readToken : String) (w : Watched)
    (o : Overseen) : Prop where
  process : w.process = o.process
  token : w.phone.readToken = readToken
  shade : w.phone.shade = o.watcher.shade
  marks : Marks jsonArray w.phone.mark o.watcher.told

variable {app readToken instant round org written}

theorem Sees.poll (self : SelfDelimiting jsonArray) {w : Watched} {o : Overseen}
    (sees : Sees jsonArray readToken w o) (visit : Visit)
    (legible : Legible instant round org written (boardAt app visit o.process)) :
    Sees jsonArray readToken (pollStep app jsonArray org written visit w)
      (overseenStep app readToken o (.poll visit)) := by
  have token := sees.token
  rw [overseenStep_poll]
  unfold pollStep
  by_cases set : readToken = ""
  · -- without a token nothing is sent, and nothing could get through
    have cut : getsThrough app readToken visit = false := by rw [set, getsThrough_empty]
    rw [if_pos (token.trans set), cut, if_neg Bool.false_ne_true]
    exact sees
  · rw [if_neg (token ▸ set), token]
    dsimp only
    have unchanged := exchange_server app written visit readToken w.process.server
    have fetched := fetch_exchange app written visit readToken w.process
    have process : { w.process with
        server := (exchange app written visit readToken w.process.server).2 } = o.process := by
      rw [unchanged, sees.process]
    cases through : getsThrough app readToken visit with
    | false =>
      have unread : (Android.fetch (exchange app written visit readToken w.process.server).1).bind
          (Android.Problems.parse org) = none := by
        rw [fetched, through]
        rfl
      rw [if_neg Bool.false_ne_true, doWork_unread unread]
      exact { process, token, shade := sees.shade, marks := sees.marks }
    | true =>
      have read : (Android.fetch (exchange app written visit readToken w.process.server).1).bind
          (Android.Problems.parse org) = some (boardAt app visit o.process).received := by
        rw [fetched, through, if_pos rfl, Option.bind_some, sees.process]
        exact parse_wire instant org round _ _ legible
      obtain ⟨token', shade, marks⟩ := doWork_look self visit.device
        (token.trans_ne set) read sees.marks sees.shade
      rw [if_pos rfl]
      exact { process, token := token'.trans token, shade, marks }

theorem sees_initially (self : SelfDelimiting jsonArray) :
    Sees jsonArray readToken (Watched.initial readToken) Overseen.initial where
  process := rfl
  token := rfl
  shade := rfl
  marks := marks_nothing self

/-- What happens to the two happens to the watcher. -/
theorem Sees.run (self : SelfDelimiting jsonArray) {w : Watched} {o : Overseen}
    (sees : Sees jsonArray readToken w o) (moments : List Moment)
    (legible : ∀ board ∈ boardsAlong app o.process moments,
      Legible instant round org written board) :
    Sees jsonArray readToken (Run.run (watchedStep app jsonArray org written) w moments)
      (Run.run (overseenStep app readToken) o moments) := by
  induction moments generalizing w o with
  | nil => exact sees
  | cons moment rest ih =>
    rw [Run.run_cons, Run.run_cons]
    cases moment with
    | service event =>
      refine ih ?_ legible
      exact { process := congrArg (processStep app · event) sees.process, token := sees.token,
              shade := sees.shade, marks := sees.marks }
    | poll visit =>
      have kept : (overseenStep app readToken o (.poll visit)).process = o.process := by
        rw [overseenStep_poll]
        split
        · rfl
        · rfl
      refine ih (sees.poll self visit (legible _ List.mem_cons_self)) ?_
      rw [kept]
      intro board member
      exact legible board (List.mem_cons_of_mem _ member)
    | dismissed =>
      refine ih ?_ legible
      exact { process := sees.process, token := sees.token,
              shade := congrArg Shade.cancel sees.shade, marks := sees.marks }

/-- In every run of the service and the phone, whatever happens in between and whichever polls
are lost or may not post, the service goes on as if nobody asked, and the phone stands where
one does who looks at the board. -/
theorem phone_refines (self : SelfDelimiting jsonArray) (moments : List Moment)
    (legible : ∀ board ∈ boardsAlong app Process.initial moments,
      Legible instant round org written board) :
    Sees jsonArray readToken (watchedAfter app jsonArray org written readToken moments)
      (overseenAfter app readToken moments) :=
  (sees_initially self).run self moments legible

end

/-! ## What is posted -/

/-- A look the watcher can act on: it may post, or there is nothing to post. -/
def heeds (permits : Bool) (alerting : Android.Problems) : Bool := permits || alerting.isEmpty

def nothingToTell : Android.Problems := { checks := [], stale := [], returned := [] }

/-- The boards that change what there is to tell. -/
abbrev newsOf (seen : List Android.Problems) : List Android.Problems :=
  changes Android.Problems.entries nothingToTell seen

/-- The alerts of boards, where they have something to tell. -/
def alertsOf (boards : List Android.Problems) : List Alert :=
  (boards.filter (fun board => !board.isEmpty)).map Android.Problems.alert

/-- A watcher that has looked at some boards. -/
structure Informed (seen : List Android.Problems) (w : Watcher) : Prop where
  told : w.told = (seen.getLastD nothingToTell).entries
  posted : w.shade.posted = alertsOf (newsOf seen)
  showing : ∀ alert, w.shade.showing = some alert →
    ∃ board, (newsOf seen).getLast? = some board ∧ board.isEmpty = false ∧ alert = board.alert

theorem alertsOf_append (boards more : List Android.Problems) :
    alertsOf (boards ++ more) = alertsOf boards ++ alertsOf more := by
  unfold alertsOf
  rw [List.filter_append, List.map_append]

theorem informed_start : Informed [] { told := 0, shade := ⟨none, []⟩ } where
  told := rfl
  posted := rfl
  showing := by simp

/-- A look that cannot be acted on changes nothing. -/
theorem look_of_not_heeds {permits : Bool} {alerting : Android.Problems} (w : Watcher)
    (unheeded : heeds permits alerting = false) : w.look permits alerting = w := by
  obtain ⟨denied, filled⟩ := Bool.or_eq_false_iff.mp unheeded
  have some : alerting.entries ≠ 0 := by
    rw [ne_eq, ← isEmpty_iff_entries, filled]
    exact Bool.false_ne_true
  unfold Watcher.look
  rw [if_neg some, denied, if_neg Bool.false_ne_true, ite_self]

theorem Informed.look {seen : List Android.Problems} {w : Watcher} (informed : Informed seen w)
    {permits : Bool} {alerting : Android.Problems} (heeded : heeds permits alerting = true) :
    Informed (seen ++ [alerting]) (w.look permits alerting) := by
  have empty := isEmpty_iff_entries alerting
  have news : newsOf (seen ++ [alerting]) =
      newsOf seen ++ if alerting.entries = w.told then [] else [alerting] := by
    rw [informed.told]
    exact changes_concat Android.Problems.entries nothingToTell seen alerting
  have last : ((seen ++ [alerting]).getLastD nothingToTell) = alerting := List.getLastD_concat
  unfold Watcher.look
  by_cases none : alerting.entries = 0
  · rw [if_pos none]
    refine { told := by rw [last, none], posted := ?_, showing := by simp [Shade.cancel] }
    have silent : alertsOf (if alerting.entries = w.told then [] else [alerting]) = [] := by
      split
      · rfl
      · simp [alertsOf, empty.mpr none]
    rw [news, alertsOf_append, silent, List.append_nil]
    exact informed.posted
  · rw [if_neg none]
    by_cases same : alerting.entries = w.told
    · rw [if_pos same, List.append_nil] at news
      rw [if_pos same]
      exact { told := by rw [last, same], posted := news ▸ informed.posted,
              showing := news ▸ informed.showing }
    · have filled : alerting.isEmpty = false := Bool.eq_false_iff.mpr (mt empty.mp none)
      have permitted : permits = true := by
        rwa [heeds, filled, Bool.or_false] at heeded
      rw [if_neg same] at news
      rw [if_neg same, if_pos permitted]
      refine { told := by rw [last], posted := ?_, showing := ?_ }
      · have one : alertsOf [alerting] = [alerting.alert] := by simp [alertsOf, filled]
        rw [news, alertsOf_append, one, ← informed.posted]
        rfl
      · intro alert shown
        refine ⟨alerting, ?_, filled, (Option.some.inj shown).symm⟩
        rw [news, List.getLast?_concat]

section

variable {Host : Type} [DecidableEq Host] (app : AppState Host) (readToken : String)

/-- What the polls of a run saw that got through and could be acted on. -/
def seenAlong : Process → List Moment → List Android.Problems
  | _, [] => []
  | process, .service event :: rest => seenAlong (processStep app process event) rest
  | process, .poll visit :: rest =>
    let alerting := (boardAt app visit process).received.notifiable
    (if getsThrough app readToken visit && heeds visit.device.permits alerting then [alerting]
      else []) ++ seenAlong process rest
  | process, .dismissed :: rest => seenAlong process rest

theorem Informed.run {seen : List Android.Problems} {o : Overseen}
    (informed : Informed seen o.watcher) (moments : List Moment) :
    Informed (seen ++ seenAlong app readToken o.process moments)
      (Run.run (overseenStep app readToken) o moments).watcher := by
  induction moments generalizing seen o with
  | nil =>
    rw [seenAlong, List.append_nil]
    exact informed
  | cons moment rest ih =>
    rw [Run.run_cons]
    cases moment with
    | service event =>
      exact ih (o := overseenStep app readToken o (.service event)) informed
    | dismissed =>
      refine ih (o := overseenStep app readToken o .dismissed) ?_
      exact { told := informed.told, posted := informed.posted,
              showing := by simp [overseenStep, Shade.cancel] }
    | poll visit =>
      rw [seenAlong, ← List.append_assoc, overseenStep_poll]
      generalize (boardAt app visit o.process).received.notifiable = alerting
      cases getsThrough app readToken visit with
      | false =>
        rw [Bool.false_and, if_neg Bool.false_ne_true, if_neg Bool.false_ne_true, List.append_nil]
        exact ih informed
      | true =>
        rw [Bool.true_and, if_pos rfl]
        cases heeded : heeds visit.device.permits alerting with
        | false =>
          rw [if_neg Bool.false_ne_true, List.append_nil, look_of_not_heeds o.watcher heeded]
          exact ih informed
        | true =>
          rw [if_pos rfl]
          exact ih (o := ⟨o.process, _⟩) (informed.look heeded)

variable {app readToken} {instant : InstantCodec} {round : Int → Int}
  {jsonArray : List KString → KString} {org : OrgJson} {written : Body → KString}

/-- Over every run the phone has posted one alert for each change of what there is to tell to
something, and no other; and what stands in its shade is the last of these, about the entries
of the last board it saw. -/
theorem alerts_are_changes (self : SelfDelimiting jsonArray) (moments : List Moment)
    (legible : ∀ board ∈ boardsAlong app Process.initial moments,
      Legible instant round org written board) :
    let seen := seenAlong app readToken Process.initial moments
    let shade := (watchedAfter app jsonArray org written readToken moments).phone.shade
    shade.posted = alertsOf (newsOf seen) ∧
      ∀ alert, shade.showing = some alert →
        ∃ board, (newsOf seen).getLast? = some board ∧ board.isEmpty = false ∧
          board.entries = (seen.getLastD nothingToTell).entries ∧ alert = board.alert := by
  intro seen shade
  have sees : Sees jsonArray readToken _ _ := (sees_initially self).run self moments legible
  have informed := @Informed.run _ _ app readToken [] Overseen.initial informed_start moments
  have same : shade = (overseenAfter app readToken moments).watcher.shade := sees.shade
  rw [same]
  refine ⟨informed.posted, ?_⟩
  intro alert shown
  obtain ⟨board, last, filled, named⟩ := informed.showing alert shown
  exact ⟨board, last, filled, key_getLast_changes _ _ _ last, named⟩

end

/-! ## A producer that falls silent -/

/-- The self-report at two in the morning, and a poll at two in the afternoon. -/
def sampleSelfcheck : Selfcheck.Surroundings :=
  { sampleSurroundings with now := 1783044000000000000, serverNow := 1783044000000000000 }

def samplePoll (granted : Bool) : Visit where
  now := ⟨1783087200 * Sql.second, by
    unfold Chrono.minTimestamp Chrono.maxTimestamp Sql.second; omega⟩
  reached := true
  answered := true
  device := { sdkInt := 34, granted }

/-- A poll that may not post, and two that may. -/
def sampleMoments : List Moment :=
  [.service (.selfcheck sampleSelfcheck), .poll (samplePoll false), .poll (samplePoll true),
    .poll (samplePoll true)]

def boardAtTwo : Problems :=
  boardAt sampleApp (samplePoll true) (processAfter sampleApp [.selfcheck sampleSelfcheck])

/-- The text of a board. -/
def boardText : Body → KString
  | .problems board => utf16 (board.body spelledInstant)
  | _ => []

def orgAtTwo : OrgJson :=
  orgReads (boardText (.problems boardAtTwo)) ((boardAtTwo.wire spelledInstant).toTree id)

theorem legible_sample :
    ∀ board ∈ boardsAlong sampleApp Process.initial sampleMoments,
      Legible spelledInstant id orgAtTwo boardText board := by
  have boards : boardsAlong sampleApp Process.initial sampleMoments =
      [boardAtTwo, boardAtTwo, boardAtTwo] := rfl
  have legible : Legible spelledInstant id orgAtTwo boardText boardAtTwo := orgReads_eq _ _
  rw [boards]
  simp [legible]

/-- The alert that tells of it. -/
def sampleAlert : Alert where
  title := utf16 "1 fleet problem"
  text := utf16 "fleetwatch/internals silent"

theorem phone_refines_sample :
    (watchedAfter sampleApp JsonArray.jsonArray orgAtTwo boardText "0123456789abcdef01234567"
      sampleMoments).phone.shade = ⟨some sampleAlert, [sampleAlert]⟩ := by
  have sees : Sees JsonArray.jsonArray "0123456789abcdef01234567" _ _ :=
    phone_refines JsonArray.selfDelimiting_jsonArray sampleMoments legible_sample
  rw [sees.shade]
  decide +kernel

theorem alerts_are_changes_sample :
    (watchedAfter sampleApp JsonArray.jsonArray orgAtTwo boardText "0123456789abcdef01234567"
      sampleMoments).phone.shade.posted = [sampleAlert] := by
  have posted := (@alerts_are_changes _ _ _ "0123456789abcdef01234567" _ _ _ _ _
    JsonArray.selfDelimiting_jsonArray sampleMoments legible_sample).1
  rw [posted]
  decide +kernel

end Fleetwatch
