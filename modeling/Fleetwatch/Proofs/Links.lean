import Fleetwatch.Proofs.Acknowledged
import Fleetwatch.Proofs.Process
import Fleetwatch.Proofs.Replies
import Fleetwatch.Proofs.RetentionRow
import Fleetwatch.Proofs.SignInReturn
import Fleetwatch.Proofs.Tiles

/-!
# No link dies

The app links every tile and every row to a report by its id. The report rows outlive
whatever the service does, so a link that was ever shown is one the browser can ask for, and
the answer is the report it was shown with.
-/

namespace Fleetwatch

open Frontend Query Sql Table Text Urlencoded Whatwg

/-- What the app is told of a report it links to. -/
structure Link where
  id : String
  source : String
  collector : String
  collectedAt : Int
  deriving DecidableEq, Repr

def OverviewEntry.link (e : OverviewEntry) : Link :=
  { id := e.reportId, source := e.source, collector := e.collector, collectedAt := e.collectedAt }

def ProblemCheck.link (c : ProblemCheck) : Link :=
  { id := c.reportId, source := c.source, collector := c.collector, collectedAt := c.collectedAt }

def MutedCheck.link (c : MutedCheck) : Link :=
  { id := c.reportId, source := c.source, collector := c.collector, collectedAt := c.collectedAt }

def ReportSummary.link (r : ReportSummary) : Link :=
  { id := r.id, source := r.source, collector := r.collector, collectedAt := r.collectedAt }

def ReportDetail.link (d : ReportDetail) : Link :=
  { id := d.id, source := d.source, collector := d.collector, collectedAt := d.collectedAt }

/-- The reports a body names. -/
def Body.links : Body → List Link
  | .overview tiles => tiles.map OverviewEntry.link
  | .problems p =>
    p.checks.map ProblemCheck.link ++ p.muted.map MutedCheck.link ++
      p.stale.map OverviewEntry.link ++ p.returned.map OverviewEntry.link
  | .reports listed => listed.map ReportSummary.link
  | .report detail => [detail.link]
  | _ => []

/-! ## Where a link comes from -/

section

variable {env : Env} {ledger : List Entry} {db : Db}

/-- The link to an entry of the ledger. -/
def Entry.link (e : Entry) : Link :=
  { id := e.id, source := e.call.source, collector := e.call.upload.collector
    collectedAt := e.storedAt }

theorem link_of_checkRow {e : Entry} {c : CheckRow} (own : c ∈ e.checkRows) :
    ({ id := c.reportId, source := c.source, collector := c.collector,
       collectedAt := c.collectedAt } : Link) = e.link := by
  obtain ⟨i, upload, -, rfl⟩ := mem_entry_checkRows own
  rfl

theorem known_of_problemRow (rep : Represents env ledger db) {r : ProblemRow}
    (member : r ∈ problemRows env db) : ∃ e ∈ ledger, r.check ∈ e.checkRows := by
  obtain ⟨inLatest, -⟩ := (mem_problemRows rep).mp member
  obtain ⟨l, -, e, points, own, -⟩ := (mem_latestProblems rep).mp inLatest
  exact ⟨e, points.member, own⟩

theorem known_of_tile (rep : Represents env ledger db) {now : Int} {tile : OverviewEntry}
    (member : tile ∈ overview env now db) : ∃ e ∈ ledger, tile.link = e.link := by
  obtain ⟨l, -, e, points, rfl⟩ := (mem_overview rep).mp member
  exact ⟨e, points.member, rfl⟩

theorem known_of_reportDetail (rep : Represents env ledger db) {id : String} {detail : ReportDetail}
    (found : reportDetail env id db = some detail) : ∃ e ∈ ledger, detail.link = e.link := by
  unfold reportDetail at found
  split at found
  · cases found
  · rename_i r inTable
    obtain rfl := Option.some.inj found
    have stored := List.mem_of_find?_eq_some inTable
    rw [rep.report] at stored
    obtain ⟨e, member, rfl⟩ := List.mem_map.mp stored
    exact ⟨e, member, rfl⟩

theorem known_of_summary (rep : Represents env ledger db) {source collector : Option String}
    {limit : UInt32} {r : ReportSummary} (member : r ∈ listReports env source collector limit db) :
    ∃ e ∈ ledger, r.link = e.link := by
  obtain ⟨row, inPage, rfl⟩ := List.mem_map.mp member
  have stored := (List.mem_filter.mp (mem_orderBy.mp (List.mem_of_mem_take inPage))).1
  rw [rep.report] at stored
  obtain ⟨e, inLedger, rfl⟩ := List.mem_map.mp stored
  exact ⟨e, inLedger, rfl⟩

theorem known_of_problems (rep : Represents env ledger db) {now : Int} {link : Link}
    (member : link ∈ (Body.problems (problems env now db)).links) :
    ∃ e ∈ ledger, link = e.link := by
  simp only [Body.links, List.mem_append] at member
  rcases member with ((inChecks | inMuted) | inStale) | inReturned
  · obtain ⟨c, shown, rfl⟩ := List.mem_map.mp inChecks
    obtain ⟨r, row, -, rfl⟩ := mem_checks.mp shown
    obtain ⟨e, inLedger, own⟩ := known_of_problemRow rep row
    exact ⟨e, inLedger, link_of_checkRow own⟩
  · obtain ⟨c, shown, rfl⟩ := List.mem_map.mp inMuted
    obtain ⟨r, row, hidden⟩ := List.mem_filterMap.mp shown
    obtain ⟨m, -, rfl⟩ := Option.map_eq_some_iff.mp hidden
    obtain ⟨e, inLedger, own⟩ := known_of_problemRow rep row
    exact ⟨e, inLedger, link_of_checkRow own⟩
  · obtain ⟨tile, shown, rfl⟩ := List.mem_map.mp inStale
    exact known_of_tile rep (List.mem_filter.mp shown).1
  · obtain ⟨tile, shown, rfl⟩ := List.mem_map.mp inReturned
    exact known_of_tile rep (List.mem_filter.mp shown).1

end

section

variable {Host : Type} (app : AppState Host) {request : Request} {ledger : List Entry} {db : Db}

/-- A link in a reply is to a report of the ledger. -/
theorem known_of_answers (rep : Represents app.env ledger db) {reply : Reply}
    (answers : Answers app request db reply) {link : Link} (shown : link ∈ reply.body.links) :
    ∃ e ∈ ledger, link = e.link := by
  cases answers with
  | overview =>
    obtain ⟨tile, member, rfl⟩ := List.mem_map.mp shown
    exact known_of_tile rep member
  | problems => exact known_of_problems rep shown
  | reports source collector limit =>
    obtain ⟨r, member, rfl⟩ := List.mem_map.mp shown
    exact known_of_summary rep member
  | report id detail found =>
    rw [List.mem_singleton.mp shown]
    exact known_of_reportDetail rep found
  | _ => cases shown

/-! ## Where it leads -/

/-- The report of an entry is found by its id after any further writes. -/
theorem reportDetail_later (rep : Represents app.env ledger db) {e : Entry} (member : e ∈ ledger)
    (ops : List Op) :
    ∃ detail, reportDetail app.env e.id (Run.run (step app.env) db ops) = some detail ∧
      detail.link = e.link := by
  obtain ⟨e', inLedger, same, -⟩ := entry_run app.env ops ledger member
  have later : Represents app.env (Run.run (ledgerStep app.env) ledger ops)
      (Run.run (step app.env) db ops) :=
    Run.run_simulation (Represents app.env) (fun _ _ op rep => represents_step rep op) ops
      ledger db rep
  have id : e'.id = e.id := congrArg (fun call : IngestCall => call.upload.id) same
  refine ⟨_, later.reportDetail inLedger (by rw [Entry.key, id]), ?_⟩
  unfold ReportDetail.link Entry.link Entry.id Entry.storedAt
  rw [same]

/-- A report's id is a segment of its own. -/
theorem addressable_of_ulid {env : Env} {id : String} (ulid : env.ulidFromString id = true) :
    ¬ Unaddressable id := by
  have length := env.ulid_length id ulid
  rintro (rfl | rfl | rfl)
  · exact absurd length (by decide)
  · exact absurd length (by decide)
  · exact absurd length (by decide)

variable [DecidableEq Host] (authority : Authority Host) (site : Origin Host)
  (readInstant : String → Except String Chrono.DateTime) (carried : Carried)

/-- What the report page asks for reaches the report's handler. -/
theorem report_asked (cfg : Config) {id : String} (addressable : ¬ Unaddressable id) :
    (ask authority site .get (reportReference id)).map (router readInstant carried cfg) =
      some (.call (.report (.ok id))) := by
  obtain ⟨filled, plain⟩ := segment_of_addressable addressable
  have bare : ∀ c ∈ encodeComponent id.toList, Bare c := fun c => bare_of_mem_encodeComponent
  have written : Written ["api".toList, "reports".toList, encodeComponent id.toList] := by
    refine ⟨by simp, by simp, ?_⟩
    intro s member
    simp only [List.mem_cons, List.not_mem_nil, or_false] at member
    rcases member with rfl | rfl | rfl
    · exact bare_literal (by decide)
    · exact bare_literal (by decide)
    · exact bare
  have free : ∀ t ∈ ["reports".toList, encodeComponent id.toList], '/' ∉ t := by
    intro t member
    simp only [List.mem_cons, List.not_mem_nil, or_false] at member
    rcases member with rfl | rfl
    · decide
    · exact slash_not_mem_of_bare bare
  have kept : removeDots ["api".toList, "reports".toList, encodeComponent id.toList] =
      ["api".toList, "reports".toList, encodeComponent id.toList] := by
    refine removeDots_of_plain ?_
    intro s member
    simp only [List.mem_cons, List.not_mem_nil, or_false] at member
    rcases member with rfl | rfl | rfl
    · decide
    · decide
    · exact plain
  have found : endpoint cfg
      (pathOf ["api".toList, "reports".toList, encodeComponent id.toList]) =
        some (.report (.ok id)) := by
    rw [endpoint_api cfg free]
    simp only [apiEndpoint, if_neg filled, String.ofList_toList, readParam_encodeComponent]
  have same : reportReference id =
      reference ["api".toList, "reports".toList, encodeComponent id.toList] none none := by
    unfold reportReference reference afterPath
    generalize encodeComponent id.toList = segment
    simp
  rw [same, ask_reference authority site .get written writtenQuery_none, kept, Option.map_some]
  unfold router
  rw [found]
  rfl

/-- A signed-in reader who asks for a report that is there gets it. -/
theorem report_served {click : Request} {server : Server} {id : String}
    (asks : click.call = .report (.ok id)) (signedIn : (click.user app server.store.sessions).isSome)
    {detail : ReportDetail} (found : reportDetail app.env id server.store.db = some detail) :
    (serve app click server).1 = some (.plain 200 (.report detail)) := by
  obtain ⟨user, authenticated⟩ := Option.isSome_iff_exists.mp signedIn
  have call : serve app click server = Views.report app click server (.ok id) := by
    unfold serve
    rw [asks]
  have kept : (server.withSessions
      (sessionsThen app click.lookup server.store.sessions)).store.db = server.store.db := rfl
  rw [call]
  unfold Views.report
  rw [forUser_eq, authenticated]
  unfold extract
  dsimp only
  rw [kept, found]

/-! ## Any time later -/

/-- A link in any reply is one the report page can ask for. However long after, and whatever
the service did in between, a signed-in reader gets the report the link was shown with. -/
theorem link_never_dies (before : List Event) (request : Request) {reply : Reply}
    (replied : (serve app request (processAfter app before).server).1 = some reply)
    {link : Link} (shown : link ∈ reply.body.links) (later : List Event) :
    (ask authority site .get (reportReference link.id)).map (router readInstant carried app.cfg) =
        some (.call (.report (.ok link.id))) ∧
      ∀ click : Request, click.call = .report (.ok link.id) →
        (click.user app
          (processAfter app (before ++ .request request :: later)).server.store.sessions).isSome →
        ∃ detail,
          (serve app click (processAfter app (before ++ .request request :: later)).server).1 =
            some (.plain 200 (.report detail)) ∧
          detail.link = link := by
  have rep : Represents app.env
      (Run.run (ledgerStep app.env) [] (opsAlong app Process.initial before))
      (processAfter app before).server.store.db := by
    rw [processAfter, run_db]
    exact represents_run app.env _
  obtain ⟨e, member, rfl⟩ :=
    known_of_answers app rep (answers_of_serve request _ _ replied) shown
  refine ⟨report_asked authority site readInstant carried app.cfg
    (addressable_of_ulid (rep.admitted e member).ulid), ?_⟩
  intro click asks signedIn
  have run : (processAfter app (before ++ .request request :: later)).server.store.db =
      Run.run (step app.env) (processAfter app before).server.store.db
        (opsAlong app (processAfter app before) (.request request :: later)) := by
    rw [processAfter, Run.run_append, run_db]
    rfl
  obtain ⟨detail, found, same⟩ := reportDetail_later app rep member
    (opsAlong app (processAfter app before) (.request request :: later))
  rw [← run] at found
  refine ⟨detail, ?_, same⟩
  exact report_served app asks signedIn found

end

/-- A login and a self-report. -/
def sampleReported : List Event :=
  [.request (sampleAt 0 false (.devLogin sampleLogin.idBytes)), .selfcheck sampleSurroundings]

/-- The overview, its one link, and a sweep after it. -/
theorem link_never_dies_sample :
    ∃ reply, (serve sampleApp (sampleAt 700 true .overview)
        (processAfter sampleApp sampleReported).server).1 = some reply ∧
      ∃ link ∈ reply.body.links, ∃ detail,
        (serve sampleApp (sampleAt 900 true (.report (.ok link.id)))
          (processAfter sampleApp (sampleReported ++
            [.request (sampleAt 700 true .overview), .retention (800 * second) .swept])).server).1 =
          some (.plain 200 (.report detail)) ∧
        detail.link = link := by
  have named : (serve sampleApp (sampleAt 700 true .overview)
      (processAfter sampleApp sampleReported).server).1.map (fun reply => reply.body.links) =
        some [⟨"01ARZ3NDEKTSV4RRFFQ69G5FAV", "fleetwatch", "internals", 3600 * second⟩] := by
    decide +kernel
  obtain ⟨reply, replied, links⟩ := Option.map_eq_some_iff.mp named
  refine ⟨reply, replied, _, links ▸ List.mem_singleton_self _, ?_⟩
  refine (link_never_dies sampleApp plainAuthority plainWeb.site (fun _ => .error "") sampleCarried
    sampleReported _ replied (links ▸ List.mem_singleton_self _) _).2 _ rfl ?_
  decide +kernel

end Fleetwatch
