import Fleetwatch.Frontend.Requests

/-!
# A request finds its handler

What the app encodes into a URL is what the handler reads out of it. A browser removes dot
segments before it sends a path, and no parameter of a route is empty: names of that kind
alone cannot be asked for by path.
-/

namespace Fleetwatch

open Frontend Text Urlencoded Whatwg

/-! ## What is sent -/

/-- A path the app writes: no character that a URL gives a meaning to, and not two slashes at
the start. -/
structure Written (path : List Segment) : Prop where
  filled : path ≠ []
  closed : ¬ ∃ t rest, path = [] :: t :: rest
  bare : ∀ s ∈ path, ∀ c ∈ s, Bare c

/-- A query the app writes. -/
def WrittenQuery (query : Option (List Char)) : Prop :=
  ∀ q, query = some q → ∀ c ∈ q, c ≠ '#' ∧ isC0OrSpace c = false

theorem writtenQuery_none : WrittenQuery none := fun _ absent => nomatch absent

theorem readable_of_written {path : List Segment} (written : Written path)
    {query : Option (List Char)} (asked : WrittenQuery query) : Readable path query none where
  filled := written.filled
  closed := written.closed
  segment := by
    intro s member c inside
    have bare := written.bare s member c inside
    exact ⟨bare.slash, bare.asks, bare.hash⟩
  asked := fun q given c member => (asked q given c member).1
  printed := by
    refine printed_append ?_ ?_
    · intro c member
      obtain ⟨s, inPath, inside⟩ := List.mem_flatMap.mp member
      rcases List.mem_cons.mp inside with rfl | inside
      · decide
      · exact (written.bare s inPath c inside).printed
    · cases query with
      | none => exact fun c member => absurd member List.not_mem_nil
      | some q =>
        refine printed_append (printed_cons (by decide) ?_) ?_
        · exact fun c member => (asked q rfl c member).2
        · exact fun c member => absurd member List.not_mem_nil

/-- A path of bare segments as it is sent. -/
def pathOf (path : List Segment) : List Char := path.flatMap (fun s => '/' :: s)

section

variable {Host : Type} [DecidableEq Host] (authority : Authority Host) (site : Origin Host)
  (method : Method)

/-- What the browser sends for a reference the app writes: the path without its dot segments,
and the query. -/
theorem ask_reference {path : List Segment} (written : Written path) {query : Option (List Char)}
    (asked : WrittenQuery query) :
    ask authority site method (reference path query none) =
      some { method, path := pathOf (removeDots path),
             query := query.map (encode inSpecialQuerySet) } := by
  have kept : ∀ s ∈ removeDots path, '/' :: encode inPathSet s = '/' :: s := by
    intro s member
    rcases mem_removeDots member with inPath | rfl
    · rw [encode_eq_self (fun c inside => (written.bare s inPath c inside).path)]
    · rfl
  have sent : (removeDots path).flatMap (fun s => '/' :: encode inPathSet s) =
      pathOf (removeDots path) := List.flatMap_congr kept
  unfold ask
  rw [join_reference (readable_of_written written asked), Option.filter_some,
    if_pos (decide_eq_true rfl), Option.map_some]
  unfold requestLine pathname
  rw [sent]

end

/-! ## What is matched -/

/-- A path that was sent is cut into its segments. -/
theorem split_pathOf {path : List Segment} (filled : path ≠ [])
    (free : ∀ s ∈ path, '/' ∉ s) : split '/' (pathOf path) = [] :: path := by
  have cut : ∀ s rest, (∀ t ∈ s :: rest, '/' ∉ t) →
      split '/' (s ++ pathOf rest) = s :: rest := by
    intro s rest free
    induction rest generalizing s with
    | nil =>
      unfold pathOf
      rw [List.flatMap_nil, List.append_nil]
      refine List.splitOnP_eq_singleton ?_
      intro c member
      exact beq_eq_false_iff_ne.mpr (fun same => free s List.mem_cons_self (same ▸ member))
    | cons t more ih =>
      unfold split pathOf
      rw [List.flatMap_cons, List.cons_append, List.splitOnP_append_cons_of_forall_mem _ _ (by decide)]
      · exact congrArg _ (ih t (fun u member => free u (List.mem_cons_of_mem _ member)))
      · intro c member
        exact beq_eq_false_iff_ne.mpr (fun same => free s List.mem_cons_self (same ▸ member))
  obtain ⟨s, rest, rfl⟩ := List.exists_cons_of_ne_nil filled
  have opening : pathOf (s :: rest) = [] ++ '/' :: (s ++ pathOf rest) := rfl
  unfold split
  rw [opening, List.splitOnP_append_cons_of_forall_mem (by simp) _ (by decide)]
  exact congrArg _ (cut s rest free)

/-- Below `/api`. -/
theorem endpoint_api (cfg : Config) {s : Segment} {rest : List Segment}
    (free : ∀ t ∈ s :: rest, '/' ∉ t) :
    endpoint cfg (pathOf ("api".toList :: s :: rest)) = apiEndpoint (s :: rest) := by
  have free' : ∀ t ∈ "api".toList :: s :: rest, '/' ∉ t := by
    intro t member
    rcases List.mem_cons.mp member with rfl | later
    · decide
    · exact free t later
  unfold endpoint
  rw [split_pathOf (by simp) free']
  rfl

/-! ## One check's history -/

theorem slash_not_mem_of_bare {s : Segment} (bare : ∀ c ∈ s, Bare c) : '/' ∉ s := by
  intro member
  exact absurd (bare '/' member).slash (by decide)

theorem bare_literal {s : Segment} (plain : s.all (fun c => decide (Bare c)) = true) :
    ∀ c ∈ s, Bare c :=
  fun c member => of_decide_eq_true (List.all_eq_true.mp plain c member)

/-- The pairs of a query, as its reader finds them in the text of a form. -/
theorem readQuery_write {α : Type} (fields : List QueryField)
    (build : List (String × String) → Except String α) (pairs : List (String × String)) :
    readQuery fields build
        (some (encode inSpecialQuerySet
          (write (pairs.map (fun pair => (pair.1.toList, pair.2.toList)))))) =
      (visitMap fields [] pairs >>= build).mapError queryRejection := by
  have plain : encode inSpecialQuerySet
      (write (pairs.map (fun pair => (pair.1.toList, pair.2.toList)))) =
        write (pairs.map (fun pair => (pair.1.toList, pair.2.toList))) :=
    encode_eq_self (fun c member => (mem_write member).1)
  have read : ((pairs.map (fun pair => (pair.1.toList, pair.2.toList))).map
      (fun pair => (String.ofList pair.1, String.ofList pair.2))) = pairs := by
    rw [List.map_map]
    refine List.map_id'' ?_ pairs
    intro pair
    simp
  unfold readQuery
  rw [plain, Option.getD_some, parse_write, read]

/-- A check's four parts as the app writes them are the parts the handler reads. -/
theorem read_historyQuery (readInstant : String → Except String Chrono.DateTime)
    (source collector sect label : String) :
    HistoryQuery.read readInstant (some (encode inSpecialQuerySet (write
      [("source".toList, source.toList), ("collector".toList, collector.toList),
        ("section".toList, sect.toList), ("label".toList, label.toList)]))) =
      .ok { source, collector, sect, label, lower := none, upper := none } := by
  have read := readQuery_write [anyText "source", anyText "collector", anyText "section",
      anyText "label", ⟨"from", refusal readInstant⟩, ⟨"to", refusal readInstant⟩]
    (fun found => do
      return {
        source := ← required found "source"
        collector := ← required found "collector"
        sect := ← required found "section"
        label := ← required found "label"
        lower := givenAs readInstant found "from"
        upper := givenAs readInstant found "to" : HistoryQuery })
    [("source", source), ("collector", collector), ("section", sect), ("label", label)]
  unfold HistoryQuery.read
  rw [List.map_cons, List.map_cons, List.map_cons, List.map_cons, List.map_nil] at read
  rw [read]
  simp [visitMap, anyText, required, given, givenAs]
  rfl

section

variable {Host : Type} [DecidableEq Host] (authority : Authority Host) (site : Origin Host)
  (cfg : Config) (readInstant : String → Except String Chrono.DateTime) (carried : Carried)

/-- The history view asks once it has all four parts of a check, and then the handler is asked
for that check, whatever characters the parts hold. -/
theorem history_asked (source collector sect label : String) :
    (historyReference source collector sect label = none ↔
      source = "" ∨ collector = "" ∨ sect = "" ∨ label = "") ∧
    ∀ text, historyReference source collector sect label = some text →
      (ask authority site .get text).map (router readInstant carried cfg) =
        some (.call (.history
          (.ok { source, collector, sect, label, lower := none, upper := none }))) := by
  unfold historyReference
  refine ⟨?_, ?_⟩
  · split
    · rename_i empty
      exact iff_of_true rfl empty
    · rename_i filled
      exact iff_of_false (by simp) filled
  · intro text asks
    split at asks
    · cases asks
    · obtain rfl := Option.some.inj asks
      have written : Written ["api".toList, "history".toList] :=
        ⟨by simp, by simp, by
          intro s member
          rcases List.mem_cons.mp member with rfl | later
          · exact bare_literal (by decide)
          · rw [List.mem_singleton.mp later]
            exact bare_literal (by decide)⟩
      have asked : WrittenQuery (some (write
          [("source".toList, source.toList), ("collector".toList, collector.toList),
            ("section".toList, sect.toList), ("label".toList, label.toList)])) := by
        intro q given c member
        obtain rfl := Option.some.inj given
        obtain ⟨plain, notHash⟩ := mem_write member
        refine ⟨notHash, Bool.eq_false_iff.mpr (fun control => ?_)⟩
        rw [inSpecialQuerySet, inQuerySet_of_isC0OrSpace control] at plain
        cases plain
      have sent := ask_reference authority site .get written asked
      have path : removeDots ["api".toList, "history".toList] =
          ["api".toList, "history".toList] := by decide
      have found : endpoint cfg (pathOf ["api".toList, "history".toList]) = some .history :=
        endpoint_api cfg (by decide)
      have same : "/api/history?".toList ++ write
          [("source".toList, source.toList), ("collector".toList, collector.toList),
            ("section".toList, sect.toList), ("label".toList, label.toList)] =
          reference ["api".toList, "history".toList] (some (write
            [("source".toList, source.toList), ("collector".toList, collector.toList),
              ("section".toList, sect.toList), ("label".toList, label.toList)])) none := by
        simp [reference, afterPath]
      rw [same, sent, path, Option.map_some]
      unfold router
      rw [found]
      show some (Routed.call (.history (HistoryQuery.read readInstant (some _)))) = _
      rw [read_historyQuery]

/-! ## One report, one producer -/

/-- A name that a browser takes out of a path, or that fills no segment. -/
def Unaddressable (name : String) : Prop := name = "" ∨ name = "." ∨ name = ".."

instance (name : String) : Decidable (Unaddressable name) :=
  inferInstanceAs (Decidable (_ ∨ _ ∨ _))

theorem readParam_encodeComponent (key name : String) :
    readParam key (encodeComponent name.toList) = .ok name := by
  unfold readParam
  rw [decodeSegment_encodeComponent]
  exact congrArg Except.ok (String.ofList_toList)

theorem encodeComponent_ne_nil {name : String} (filled : name ≠ "") :
    encodeComponent name.toList ≠ [] := by
  intro empty
  exact filled (String.toList_inj.mp (encode_eq_nil empty))

/-- A name is an ordinary segment, or one or two dots. -/
theorem segment_cases (name : String) :
    isDot (encodeComponent name.toList) = false ∨ encodeComponent name.toList = ['.'] ∨
      encodeComponent name.toList = ['.', '.'] := by
  cases dot : isDot (encodeComponent name.toList) with
  | false => exact Or.inl rfl
  | true =>
    rcases (isDot_encodeComponent_iff _).mp dot with one | two
    · rw [one]
      exact Or.inr (Or.inl (by decide))
    · rw [two]
      exact Or.inr (Or.inr (by decide))

/-- An ordinary segment that cannot be addressed is empty. -/
theorem empty_of_plain {name : String} (plain : isDot (encodeComponent name.toList) = false)
    (unaddressable : Unaddressable name) : encodeComponent name.toList = [] := by
  rcases unaddressable with rfl | rfl | rfl
  · rfl
  · exact absurd plain (by decide)
  · exact absurd plain (by decide)

/-- A name that can be addressed is a segment that no browser takes out. -/
theorem segment_of_addressable {name : String} (addressable : ¬ Unaddressable name) :
    encodeComponent name.toList ≠ [] ∧ isDot (encodeComponent name.toList) = false := by
  refine ⟨encodeComponent_ne_nil (fun empty => addressable (Or.inl empty)), ?_⟩
  refine Bool.eq_false_iff.mpr (fun dot => addressable ?_)
  rcases (isDot_encodeComponent_iff _).mp dot with one | two
  · exact Or.inr (Or.inl (String.toList_inj.mp one))
  · exact Or.inr (Or.inr (String.toList_inj.mp two))

/-- What is left of a producer's path where one of its names is a dot segment, or neither. -/
theorem removeDots_producer {s c : Segment} (plain : isDot s = false) (plain' : isDot c = false) :
    removeDots ["api".toList, "retirements".toList, s, c] =
        ["api".toList, "retirements".toList, s, c] ∧
      removeDots ["api".toList, "retirements".toList, s, ['.']] =
        ["api".toList, "retirements".toList, s, []] ∧
      removeDots ["api".toList, "retirements".toList, s, ['.', '.']] =
        ["api".toList, "retirements".toList, []] ∧
      removeDots ["api".toList, "retirements".toList, ['.'], c] =
        ["api".toList, "retirements".toList, c] ∧
      removeDots ["api".toList, "retirements".toList, ['.', '.'], c] = ["api".toList, c] := by
  obtain ⟨double, single⟩ := Bool.or_eq_false_iff.mp plain
  obtain ⟨double', single'⟩ := Bool.or_eq_false_iff.mp plain'
  have api : isDoubleDot "api".toList = false ∧ isSingleDot "api".toList = false := by decide
  have retirements : isDoubleDot "retirements".toList = false ∧
      isSingleDot "retirements".toList = false := by decide
  have one : isDoubleDot ['.'] = false ∧ isSingleDot ['.'] = true := by decide
  have two : isDoubleDot ['.', '.'] = true := by decide
  generalize "api".toList = api' at *
  generalize "retirements".toList = retirements' at *
  simp [removeDots, walk, double, single, double', single', api, retirements, one, two]

/-- What the app asks for to take a retirement back. -/
def unretire (source collector : String) : Option Routed :=
  (ask authority site .delete (retirementReference source collector)).map
    (router readInstant carried cfg)

theorem unretire_eq (source collector : String) :
    unretire authority site cfg readInstant carried source collector =
      some (router readInstant carried cfg
        { method := .delete
          path := pathOf (removeDots ["api".toList, "retirements".toList,
            encodeComponent source.toList, encodeComponent collector.toList])
          query := none }) := by
  have written : Written ["api".toList, "retirements".toList, encodeComponent source.toList,
      encodeComponent collector.toList] := by
    refine ⟨by simp, by simp, ?_⟩
    intro s member
    simp only [List.mem_cons, List.not_mem_nil, or_false] at member
    rcases member with rfl | rfl | rfl | rfl
    · exact bare_literal (by decide)
    · exact bare_literal (by decide)
    · exact fun c inside => bare_of_mem_encodeComponent inside
    · exact fun c inside => bare_of_mem_encodeComponent inside
  have sent := ask_reference authority site .delete written writtenQuery_none
  have same : retirementReference source collector = reference ["api".toList, "retirements".toList,
      encodeComponent source.toList, encodeComponent collector.toList] none none := by
    unfold retirementReference reference afterPath
    generalize encodeComponent source.toList = first
    generalize encodeComponent collector.toList = second
    simp
  unfold unretire
  rw [same, sent]
  rfl


/-- Where a `DELETE` of a path below `/api` goes. -/
theorem router_delete {s : Segment} {rest : List Segment} (free : ∀ t ∈ s :: rest, '/' ∉ t) :
    router readInstant carried cfg
        { method := .delete, path := pathOf ("api".toList :: s :: rest), query := none } =
      dispatch readInstant carried none .delete (apiEndpoint (s :: rest)) := by
  unfold router
  rw [endpoint_api cfg free]

/-- A path that is none of the router's, or has no handler that deletes. -/
theorem dispatch_ne_call {found : Option Endpoint}
    (unhandled : ∀ endpoint, found = some endpoint →
      endpoint.call readInstant carried none .delete = none) (call : Call) :
    dispatch readInstant carried none .delete found ≠ .call call := by
  unfold dispatch
  split
  · exact Routed.noConfusion
  · rw [unhandled _ rfl]
    exact Routed.noConfusion

/-- No handler deletes what one segment below `/api` names. -/
theorem not_call_of_one {s : Segment} (free : '/' ∉ s) (call : Call) :
    router readInstant carried cfg
      { method := .delete, path := pathOf ["api".toList, s], query := none } ≠ .call call := by
  rw [router_delete cfg readInstant carried (by simpa using free)]
  refine dispatch_ne_call readInstant carried ?_ call
  intro endpoint found
  simp only [apiEndpoint] at found
  split at found <;> cases found <;> rfl

/-- Nor what `retirements` and one more segment name. -/
theorem not_call_of_two {s : Segment} (free : '/' ∉ s) (call : Call) :
    router readInstant carried cfg
      { method := .delete, path := pathOf ["api".toList, "retirements".toList, s],
        query := none } ≠ .call call := by
  have free' : ∀ t ∈ ["retirements".toList, s], '/' ∉ t := by
    intro t member
    simp only [List.mem_cons, List.not_mem_nil, or_false] at member
    rcases member with rfl | rfl
    · decide
    · exact free
  rw [router_delete cfg readInstant carried free']
  refine dispatch_ne_call readInstant carried ?_ call
  intro endpoint found
  simp only [apiEndpoint, String.ofList_toList] at found
  split at found <;> cases found

/-- Nor a producer with an empty name. -/
theorem not_call_of_empty {s c : Segment} (free : '/' ∉ s) (free' : '/' ∉ c)
    (empty : s = [] ∨ c = []) (call : Call) :
    router readInstant carried cfg
      { method := .delete, path := pathOf ["api".toList, "retirements".toList, s, c],
        query := none } ≠ .call call := by
  have all : ∀ t ∈ ["retirements".toList, s, c], '/' ∉ t := by
    intro t member
    simp only [List.mem_cons, List.not_mem_nil, or_false] at member
    rcases member with rfl | rfl | rfl
    · decide
    · exact free
    · exact free'
  rw [router_delete cfg readInstant carried all]
  refine dispatch_ne_call readInstant carried ?_ call
  intro endpoint found
  simp only [apiEndpoint, if_pos empty] at found
  cases found

/-- Taking a retirement back reaches the producer it names, whatever characters the names hold,
unless one of them is empty or a dot segment; then it reaches no handler at all. -/
theorem unretire_iff (source collector : String) :
    (unretire authority site cfg readInstant carried source collector =
        some (.call (.deleteRetirement (.ok (source, collector)))) ↔
      ¬ Unaddressable source ∧ ¬ Unaddressable collector) ∧
    (Unaddressable source ∨ Unaddressable collector →
      ∀ call, unretire authority site cfg readInstant carried source collector ≠
        some (.call call)) := by
  have lost : Unaddressable source ∨ Unaddressable collector →
      ∀ call, unretire authority site cfg readInstant carried source collector ≠
        some (.call call) := by
    intro either call
    rw [unretire_eq, Ne, Option.some.injEq]
    have free : '/' ∉ encodeComponent source.toList :=
      slash_not_mem_of_bare (fun c => bare_of_mem_encodeComponent)
    have free' : '/' ∉ encodeComponent collector.toList :=
      slash_not_mem_of_bare (fun c => bare_of_mem_encodeComponent)
    have noSlash : '/' ∉ ([] : Segment) := List.not_mem_nil
    have ordinary : isDot ([] : Segment) = false := by decide
    -- the browser takes out the dot segments; what is left is too short or has an empty name
    rcases segment_cases source with plain | one | two
    · rcases segment_cases collector with plain' | one' | two'
      · rw [(removeDots_producer plain plain').1]
        refine not_call_of_empty cfg readInstant carried free free' ?_ call
        exact either.imp (empty_of_plain plain) (empty_of_plain plain')
      · rw [one', (removeDots_producer plain ordinary).2.1]
        exact not_call_of_empty cfg readInstant carried free noSlash (Or.inr rfl) call
      · rw [two', (removeDots_producer plain ordinary).2.2.1]
        exact not_call_of_two cfg readInstant carried noSlash call
    · rw [one]
      rcases segment_cases collector with plain' | one' | two'
      · rw [(removeDots_producer ordinary plain').2.2.2.1]
        exact not_call_of_two cfg readInstant carried free' call
      · rw [one', show removeDots ["api".toList, "retirements".toList, ['.'], ['.']] =
          ["api".toList, "retirements".toList, []] by decide]
        exact not_call_of_two cfg readInstant carried noSlash call
      · rw [two', show removeDots ["api".toList, "retirements".toList, ['.'], ['.', '.']] =
          ["api".toList, []] by decide]
        exact not_call_of_one cfg readInstant carried noSlash call
    · rw [two]
      rcases segment_cases collector with plain' | one' | two'
      · rw [(removeDots_producer ordinary plain').2.2.2.2]
        exact not_call_of_one cfg readInstant carried free' call
      · rw [one', show removeDots ["api".toList, "retirements".toList, ['.', '.'], ['.']] =
          ["api".toList, []] by decide]
        exact not_call_of_one cfg readInstant carried noSlash call
      · rw [two', show removeDots ["api".toList, "retirements".toList, ['.', '.'], ['.', '.']] =
          [[]] by decide]
        unfold router
        exact Routed.noConfusion
  refine ⟨⟨?_, ?_⟩, lost⟩
  · intro reached
    refine not_or.mp ?_
    intro either
    exact lost either _ reached
  · rintro ⟨first, second⟩
    obtain ⟨filled, plain⟩ := segment_of_addressable first
    obtain ⟨filled', plain'⟩ := segment_of_addressable second
    have all : ∀ t ∈ ["retirements".toList, encodeComponent source.toList,
        encodeComponent collector.toList], '/' ∉ t := by
      intro t member
      simp only [List.mem_cons, List.not_mem_nil, or_false] at member
      rcases member with rfl | rfl | rfl
      · decide
      · exact slash_not_mem_of_bare (fun c => bare_of_mem_encodeComponent)
      · exact slash_not_mem_of_bare (fun c => bare_of_mem_encodeComponent)
    rw [unretire_eq, (removeDots_producer plain plain').1, router_delete cfg readInstant carried all]
    unfold apiEndpoint
    dsimp only
    rw [if_neg (by simp [filled, filled'])]
    simp [readParam_encodeComponent]
    rfl

end

end Fleetwatch
