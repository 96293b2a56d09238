import Fleetwatch.Lib.Hex
import Fleetwatch.Lib.Url

/-!
# A written URL is read back

What `fromPath` writes of a URL is a reference that begins with a slash. Unless its path
opens with an empty segment and another, every site reads it as itself: the same path,
query and fragment, each encoded, and writing that once more changes nothing.
-/

namespace Fleetwatch.Whatwg

/-! ## Encoding once -/

/-- The set leaves alone what percent encoding writes. -/
structure Stable (set : Char → Bool) : Prop where
  sign : set '%' = false
  digit : ∀ n < 16, set (hexDigit n) = false

theorem stable_inPathSet : Stable inPathSet := ⟨by decide, by decide⟩
theorem stable_inSpecialQuerySet : Stable inSpecialQuerySet := ⟨by decide, by decide⟩
theorem stable_inFragmentSet : Stable inFragmentSet := ⟨by decide, by decide⟩

/-- A character of an encoded text is one the set leaves alone, or belongs to a triplet. -/
theorem mem_encode {set : Char → Bool} {text : List Char} {c : Char}
    (member : c ∈ encode set text) :
    (c ∈ text ∧ set c = false) ∨ c = '%' ∨ ∃ n < 16, c = hexDigit n := by
  obtain ⟨d, inText, written⟩ := List.mem_flatMap.mp member
  split at written
  · obtain ⟨b, _, byte⟩ := List.mem_flatMap.mp written
    have small := b.toNat_lt
    simp only [percentByte, List.mem_cons, List.not_mem_nil, or_false] at byte
    rcases byte with sign | high | low
    · exact Or.inr (Or.inl sign)
    · exact Or.inr (Or.inr ⟨_, by omega, high⟩)
    · exact Or.inr (Or.inr ⟨_, by omega, low⟩)
  · rename_i plain
    obtain rfl := List.mem_singleton.mp written
    exact Or.inl ⟨inText, Bool.eq_false_iff.mpr plain⟩

theorem not_set_of_mem_encode {set : Char → Bool} (stable : Stable set) {text : List Char}
    {c : Char} (member : c ∈ encode set text) : set c = false := by
  rcases mem_encode member with ⟨_, plain⟩ | rfl | ⟨n, small, rfl⟩
  · exact plain
  · exact stable.sign
  · exact stable.digit n small

/-- Text the set leaves alone is written as it stands. -/
theorem encode_eq_self {set : Char → Bool} {text : List Char} (free : ∀ c ∈ text, set c = false) :
    encode set text = text := by
  induction text with
  | nil => rfl
  | cons c rest ih =>
    have here := free c List.mem_cons_self
    have tail := ih (fun other member => free other (List.mem_cons_of_mem _ member))
    unfold encode at tail ⊢
    rw [List.flatMap_cons, here, tail]
    rfl

/-- Encoding what was encoded for another set encodes for both. -/
theorem encode_after {first second : Char → Bool} (stable : Stable second) (text : List Char) :
    encode second (encode first text) = encode (fun c => first c || second c) text := by
  induction text with
  | nil => rfl
  | cons c rest ih =>
    have cut : encode first (c :: rest) = encode first [c] ++ encode first rest := by
      simp [encode]
    have cut' : encode (fun c => first c || second c) (c :: rest) =
        encode (fun c => first c || second c) [c] ++
          encode (fun c => first c || second c) rest := by
      simp [encode]
    have joined : encode second (encode first [c] ++ encode first rest) =
        encode second (encode first [c]) ++ encode second (encode first rest) :=
      List.flatMap_append
    rw [cut, cut', joined, ih]
    congr 1
    cases inside : first c with
    | true =>
      have triplets : encode first [c] = (String.utf8EncodeChar c).flatMap percentByte := by
        simp [encode, inside]
      have kept : encode second ((String.utf8EncodeChar c).flatMap percentByte) =
          (String.utf8EncodeChar c).flatMap percentByte := by
        refine encode_eq_self (fun d member => ?_)
        obtain ⟨b, _, byte⟩ := List.mem_flatMap.mp member
        have small := b.toNat_lt
        simp only [percentByte, List.mem_cons, List.not_mem_nil, or_false] at byte
        rcases byte with rfl | rfl | rfl
        · exact stable.sign
        · exact stable.digit _ (by omega)
        · exact stable.digit _ (by omega)
      rw [triplets, kept]
      simp [encode, inside]
    | false => simp [encode, inside]

theorem encode_encode {set : Char → Bool} (stable : Stable set) (text : List Char) :
    encode set (encode set text) = encode set text :=
  encode_eq_self (fun _ member => not_set_of_mem_encode stable member)

/-! ## Dot segments -/

/-- A segment with a meaning of its own. -/
def isDot (s : Segment) : Bool := isDoubleDot s || isSingleDot s

/-- The spellings of a dot segment, in lower case. -/
def dotSpellings : List Segment :=
  [['.'], ['%', '2', 'e'], ['.', '.'], ['.', '%', '2', 'e'], ['%', '2', 'e', '.'],
    ['%', '2', 'e', '%', '2', 'e']]

theorem isDot_iff (s : Segment) : isDot s = true ↔ s.map Char.toLower ∈ dotSpellings := by
  unfold isDot isDoubleDot isSingleDot dotSpellings
  simp only [Bool.or_eq_true, decide_eq_true_eq, List.mem_cons, List.not_mem_nil, or_false]
  tauto

/-- In a dot segment every percent sign is followed by `2e`. -/
theorem triplet_of_dotSpelling {t before after : List Char} {x y : Char} (dot : t ∈ dotSpellings)
    (split : t = before ++ '%' :: x :: y :: after) : x = '2' ∧ y = 'e' := by
  subst split
  have short : before.length ≤ 3 := by
    have lengths : ∀ t ∈ dotSpellings, t.length ≤ 6 := by decide
    have length := lengths _ dot
    simp only [List.length_append, List.length_cons] at length
    omega
  simp only [dotSpellings, List.mem_cons, List.not_mem_nil, or_false] at dot
  match before, short with
  | [], _ => simp at dot; tauto
  | [_], _ => simp at dot; tauto
  | [_, _], _ => simp at dot
  | [_, _, _], _ => simp at dot; tauto

/-- The first byte of a character that is no dot is not a dot's. -/
theorem byte_of_ne_dot {c : Char} (other : c ≠ '.') :
    ∃ b rest, String.utf8EncodeChar c = b :: rest ∧ b.toNat ≠ 0x2E := by
  by_cases ascii : c.toNat ≤ 127
  · refine ⟨UInt8.ofNat c.toNat, [], ?_, ?_⟩
    · unfold String.utf8EncodeChar
      exact if_pos ascii
    · intro dot
      rw [UInt8.toNat_ofNat', Nat.mod_eq_of_lt (by omega)] at dot
      exact other (Char.toNat_inj.mp dot)
  · have notAscii : ¬ c.val.toNat ≤ 127 := ascii
    unfold String.utf8EncodeChar
    simp only [if_neg notAscii]
    split
    · refine ⟨_, _, rfl, ?_⟩
      rw [UInt8.toNat_ofNat']
      omega
    · split
      · refine ⟨_, _, rfl, ?_⟩
        rw [UInt8.toNat_ofNat']
        omega
      · refine ⟨_, _, rfl, ?_⟩
        rw [UInt8.toNat_ofNat']
        omega

/-- A dot segment has nothing encoded in it. -/
theorem not_set_of_isDot_encode {set : Char → Bool} (dotFree : set '.' = false) {s : Segment}
    (dot : isDot (encode set s) = true) : ∀ c ∈ s, set c = false := by
  have lower : ∀ n < 16, (hexDigit n).toLower = '2' → n = 2 := by decide
  have lower' : ∀ n < 16, (hexDigit n).toLower = 'e' → n = 14 := by decide
  intro c member
  cases inside : set c with
  | false => rfl
  | true =>
    have other : c ≠ '.' := by
      rintro rfl
      rw [dotFree] at inside
      cases inside
    obtain ⟨before, after, rfl⟩ := List.append_of_mem member
    obtain ⟨b, bytes, encoded, notDot⟩ := byte_of_ne_dot other
    have small := b.toNat_lt
    have whole : (encode set (before ++ c :: after)).map Char.toLower =
        (encode set before).map Char.toLower ++ '%' :: (hexDigit (b.toNat / 16)).toLower ::
          (hexDigit (b.toNat % 16)).toLower ::
            (bytes.flatMap percentByte ++ encode set after).map Char.toLower := by
      unfold encode
      simp [inside, encoded, percentByte]
    obtain ⟨high, low⟩ := triplet_of_dotSpelling ((isDot_iff _).mp dot) whole
    have first := lower _ (by omega) high
    have second := lower' _ (by omega) low
    exact absurd (show b.toNat = 0x2E by omega) notDot

/-- Encoding makes no dot segment. -/
theorem isDot_encode {set : Char → Bool} (dotFree : set '.' = false) {s : Segment}
    (dot : isDot (encode set s) = true) : isDot s = true := by
  rwa [encode_eq_self (not_set_of_isDot_encode dotFree dot)] at dot

/-! ## Paths without dot segments -/

theorem walk_of_plain {stack path : List Segment} (plain : ∀ s ∈ path, isDot s = false) :
    walk stack path = stack ++ path := by
  induction path generalizing stack with
  | nil => exact (List.append_nil _).symm
  | cons s rest ih =>
    have here := plain s List.mem_cons_self
    unfold isDot at here
    rw [Bool.or_eq_false_iff] at here
    rw [walk, here.1, here.2, if_neg Bool.false_ne_true, if_neg Bool.false_ne_true,
      ih (fun other member => plain other (List.mem_cons_of_mem _ member)), List.append_assoc]
    rfl

theorem removeDots_of_plain {path : List Segment} (plain : ∀ s ∈ path, isDot s = false) :
    removeDots path = path := by
  rcases List.eq_nil_or_concat path with rfl | ⟨front, last, rfl⟩
  · rfl
  · rw [List.concat_eq_append] at plain ⊢
    have ends := plain last (by simp)
    unfold isDot at ends
    rw [removeDots_concat, ends, if_neg Bool.false_ne_true, walk_of_plain plain, List.nil_append]

theorem plain_walk {stack path : List Segment} (plain : ∀ s ∈ stack, isDot s = false) :
    ∀ s ∈ walk stack path, isDot s = false := by
  induction path generalizing stack with
  | nil => exact plain
  | cons t rest ih =>
    rw [walk]
    split
    · exact ih (fun s member => plain s (List.mem_of_mem_dropLast member))
    · rename_i double
      split
      · exact ih plain
      · rename_i single
        refine ih (fun s member => ?_)
        rcases List.mem_append.mp member with old | new
        · exact plain s old
        · rw [List.mem_singleton.mp new, isDot, Bool.or_eq_false_iff]
          exact ⟨Bool.eq_false_iff.mpr double, Bool.eq_false_iff.mpr single⟩

/-- What is left of a path has no dot segment. -/
theorem plain_removeDots {path : List Segment} : ∀ s ∈ removeDots path, isDot s = false := by
  have walked : ∀ s ∈ walk [] path, isDot s = false :=
    plain_walk (fun _ member => absurd member List.not_mem_nil)
  intro s member
  rw [removeDots] at member
  split at member
  · split at member
    · rcases List.mem_append.mp member with kept | new
      · exact walked s kept
      · rw [List.mem_singleton.mp new]
        rfl
    · exact walked s member
  · cases member

/-! ## Reading what was written -/

/-- The text of a path is cut into its segments again. -/
theorem segments_written {s : Segment} {rest : List Segment}
    (free : ∀ t ∈ s :: rest, ∀ c ∈ t, isSlash c = false) :
    segments (s ++ rest.flatMap (fun t => '/' :: t)) = s :: rest := by
  unfold segments
  induction rest generalizing s with
  | nil =>
    rw [List.flatMap_nil, List.append_nil]
    exact List.splitOnP_eq_singleton (free s List.mem_cons_self)
  | cons t more ih =>
    rw [List.flatMap_cons, List.cons_append,
      List.splitOnP_append_cons_of_forall_mem (free s List.mem_cons_self) '/' (by decide),
      ih (fun u member => free u (List.mem_cons_of_mem _ member))]

/-- What follows a path. -/
def afterPath (query fragment : Option (List Char)) : List Char :=
  (match query with
    | some q => '?' :: q
    | none => []) ++
  (match fragment with
    | some f => '#' :: f
    | none => [])

/-- A path, a query and a fragment as they stand in a reference. -/
def reference (path : List Segment) (query fragment : Option (List Char)) : List Char :=
  path.flatMap (fun s => '/' :: s) ++ afterPath query fragment

/-- The parts stand apart in it, and its path does not open with an empty segment and another. -/
structure Readable (path : List Segment) (query fragment : Option (List Char)) : Prop where
  filled : path ≠ []
  closed : ¬ ∃ t rest, path = [] :: t :: rest
  segment : ∀ s ∈ path, ∀ c ∈ s, isSlash c = false ∧ c ≠ '?' ∧ c ≠ '#'
  asked : ∀ q, query = some q → ∀ c ∈ q, c ≠ '#'
  printed : Printed (reference path query fragment)

/-- The three parts of a text that is a path, free of `?` and `#`, and what follows it. -/
theorem parts_reference {query : Option (List Char)} (fragment : Option (List Char))
    {text : List Char}
    (free : ∀ c ∈ text, c ≠ '?' ∧ c ≠ '#') (inQuery : ∀ q, query = some q → ∀ c ∈ q, c ≠ '#') :
    pathText (text ++ afterPath query fragment) = text ∧
      queryText (text ++ afterPath query fragment) = query ∧
      fragmentText (text ++ afterPath query fragment) = fragment := by
  have inPath : ∀ c ∈ text, (c ≠ '?' && c ≠ '#') = true := by
    intro c member
    simpa using free c member
  have beforeHash : ∀ c ∈ text, decide (c ≠ '#') = true := by
    intro c member
    simpa using (free c member).2
  unfold pathText queryText fragmentText
  rw [List.takeWhile_append_of_pos inPath, List.dropWhile_append_of_pos inPath,
    List.dropWhile_append_of_pos beforeHash]
  unfold afterPath
  cases query with
  | none =>
    cases fragment with
    | none => exact ⟨List.append_nil _, rfl, rfl⟩
    | some f => exact ⟨List.append_nil _, rfl, rfl⟩
  | some q =>
    have noHash : ∀ c ∈ '?' :: q, decide (c ≠ '#') = true := by
      intro c member
      rcases List.mem_cons.mp member with rfl | inQ
      · decide
      · simpa using inQuery q rfl c inQ
    have noHash' : ∀ c ∈ q, decide (c ≠ '#') = true :=
      fun c member => noHash c (List.mem_cons_of_mem _ member)
    refine ⟨List.append_nil _, ?_, ?_⟩
    · show some (List.takeWhile (fun c => decide (c ≠ '#')) (q ++ _)) = _
      rw [List.takeWhile_append_of_pos noHash']
      cases fragment <;> exact congrArg some (List.append_nil _)
    · rw [List.dropWhile_append_of_pos noHash]
      cases fragment <;> rfl

/-- What follows the first slash of a reference opens with none. -/
theorem head_of_readable {s : Segment} {rest : List Segment} {query fragment : Option (List Char)}
    (readable : Readable (s :: rest) query fragment) {d : Char} {more : List Char}
    (begins : s ++ rest.flatMap (fun t => '/' :: t) ++ afterPath query fragment = d :: more) :
    isSlash d = false := by
  cases s with
  | cons c others =>
    obtain rfl := (List.cons.inj begins).1
    exact (readable.segment _ List.mem_cons_self _ List.mem_cons_self).1
  | nil =>
    have alone : rest = [] := by
      cases rest with
      | nil => rfl
      | cons t more => exact absurd ⟨t, more, rfl⟩ readable.closed
    rw [alone, List.flatMap_nil, List.nil_append, List.nil_append] at begins
    unfold afterPath at begins
    cases query with
    | some q =>
      obtain rfl := (List.cons.inj begins).1
      rfl
    | none =>
      cases fragment with
      | some f =>
        obtain rfl := (List.cons.inj begins).1
        rfl
      | none => cases begins

variable {Host : Type}

/-- A reference is read in its parts at every site, its dot segments aside. -/
theorem join_reference {path : List Segment} {query fragment : Option (List Char)}
    (readable : Readable path query fragment) (authority : Authority Host)
    (site : Origin Host) :
    join authority site (reference path query fragment) =
      some { origin := site, path := removeDots path, query, fragment } := by
  obtain ⟨s, rest, rfl⟩ := List.exists_cons_of_ne_nil readable.filled
  -- the text after the first slash
  let text := s ++ rest.flatMap (fun t => '/' :: t)
  have opening : reference (s :: rest) query fragment = '/' :: (text ++ afterPath query fragment) :=
    rfl
  have unmarked : ∀ c ∈ text, c ≠ '?' ∧ c ≠ '#' := by
    intro c member
    rcases List.mem_append.mp member with first | later
    · exact (readable.segment s List.mem_cons_self c first).2
    · obtain ⟨t, inRest, inside⟩ := List.mem_flatMap.mp later
      rcases List.mem_cons.mp inside with rfl | inside
      · decide
      · exact (readable.segment t (List.mem_cons_of_mem s inRest) c inside).2
  obtain ⟨pathIs, queryIs, fragmentIs⟩ :=
    parts_reference fragment unmarked readable.asked
  have cut : segments text = s :: rest :=
    segments_written (fun t member c inside => (readable.segment t member c inside).1)
  have read : ofPath site (text ++ afterPath query fragment) =
      { origin := site, path := removeDots (s :: rest), query, fragment } := by
    unfold ofPath
    rw [pathIs, queryIs, fragmentIs, cut]
  have located : locate authority site ('/' :: (text ++ afterPath query fragment)) =
      some (site, text ++ afterPath query fragment) := by
    cases begins : text ++ afterPath query fragment with
    | nil => rfl
    | cons d more =>
      rw [locate, head_of_readable readable begins, Bool.and_false]
      rfl
  rw [join, clean_of_printed readable.printed, opening, located, Option.map_some]
  exact congrArg some read

/-! ## Reading a URL that was written -/

/-- A URL as a parser leaves it, whatever its origin: a path that is there, without dot
segments and without slashes in its segments. -/
structure Normal (u : Url Host) : Prop where
  filled : u.path ≠ []
  plain : ∀ s ∈ u.path, isDot s = false
  free : ∀ s ∈ u.path, ∀ c ∈ s, isSlash c = false

theorem normal_ofPath (origin : Origin Host) (text : List Char) : Normal (ofPath origin text) where
  filled := removeDots_ne_nil (List.splitOnP_ne_nil _ _)
  plain := plain_removeDots
  free := by
    intro s member c inner
    rcases mem_removeDots member with written | rfl
    · exact not_isSlash_of_mem_segments written inner
    · cases inner

/-- A URL with each of its parts encoded, at a site. -/
def encodedAt (site : Origin Host) (u : Url Host) : Url Host :=
  { origin := site
    path := u.path.map (encode inPathSet)
    query := u.query.map (encode inSpecialQuerySet)
    fragment := u.fragment.map (encode inFragmentSet) }

theorem fromPath_eq (u : Url Host) :
    fromPath u = reference (u.path.map (encode inPathSet))
      (u.query.map (encode inSpecialQuerySet)) (u.fragment.map (encode inFragmentSet)) := by
  unfold fromPath reference afterPath
  rw [List.flatMap_map, List.append_assoc]
  cases u.query <;> cases u.fragment <;> rfl

/-- A URL that was encoded is written as before. -/
theorem fromPath_encodedAt (site : Origin Host) (u : Url Host) :
    fromPath (encodedAt site u) = fromPath u := by
  have again : ∀ {set : Char → Bool}, Stable set → ∀ text : Option (List Char),
      (text.map (encode set)).map (encode set) = text.map (encode set) := by
    intro set stable text
    cases text with
    | none => rfl
    | some t => exact congrArg some (encode_encode stable t)
  have path : (u.path.map (encode inPathSet)).map (encode inPathSet) =
      u.path.map (encode inPathSet) := by
    rw [List.map_map]
    exact List.map_congr_left (fun s _ => encode_encode stable_inPathSet s)
  rw [fromPath_eq, fromPath_eq]
  show reference ((u.path.map _).map _) ((u.query.map _).map _) ((u.fragment.map _).map _) = _
  rw [path, again stable_inSpecialQuerySet, again stable_inFragmentSet]

/-- No encoded segment holds a slash or ends the path. -/
theorem mem_encode_inPathSet {s : Segment} {c : Char} (free : ∀ d ∈ s, isSlash d = false)
    (member : c ∈ encode inPathSet s) : isSlash c = false ∧ c ≠ '?' ∧ c ≠ '#' := by
  have digits : ∀ n < 16, isSlash (hexDigit n) = false ∧ hexDigit n ≠ '?' ∧ hexDigit n ≠ '#' := by
    decide
  rcases mem_encode member with ⟨inText, plain⟩ | rfl | ⟨n, small, rfl⟩
  · refine ⟨free c inText, ?_, ?_⟩
    · rintro rfl
      exact absurd plain (by decide)
    · rintro rfl
      exact absurd plain (by decide)
  · decide
  · exact digits n small

theorem readable_fromPath {u : Url Host} (normal : Normal u)
    (closed : ¬ ∃ t rest, u.path = [] :: t :: rest) :
    Readable (u.path.map (encode inPathSet)) (u.query.map (encode inSpecialQuerySet))
      (u.fragment.map (encode inFragmentSet)) where
  filled := by
    rw [Ne, List.map_eq_nil_iff]
    exact normal.filled
  closed := by
    rintro ⟨t, rest, opens⟩
    obtain ⟨s, others, path, first, later⟩ := List.map_eq_cons_iff.mp opens
    obtain ⟨t', more, rfl, _, _⟩ := List.map_eq_cons_iff.mp later
    exact closed ⟨t', more, by rw [path, encode_eq_nil first]⟩
  segment := by
    intro s member c inside
    obtain ⟨t, inPath, rfl⟩ := List.mem_map.mp member
    exact mem_encode_inPathSet (normal.free t inPath) inside
  asked := by
    rintro q encoded c member rfl
    obtain ⟨q', _, rfl⟩ := Option.map_eq_some_iff.mp encoded
    exact absurd (not_set_of_mem_encode stable_inSpecialQuerySet member) (by decide)
  printed := by
    rw [← fromPath_eq]
    exact printed_fromPath u

/-- A written URL that does not open with two slashes is read back, encoded, at any site. -/
theorem join_fromPath {u : Url Host} (normal : Normal u)
    (closed : ¬ ∃ t rest, u.path = [] :: t :: rest) (authority : Authority Host)
    (site : Origin Host) : join authority site (fromPath u) = some (encodedAt site u) := by
  have plain : ∀ t ∈ u.path.map (encode inPathSet), isDot t = false := by
    intro t member
    obtain ⟨t, inPath, rfl⟩ := List.mem_map.mp member
    have ordinary := normal.plain t inPath
    cases dot : isDot (encode inPathSet t) with
    | false => rfl
    | true => exact absurd (isDot_encode (by decide) dot) (by simp [ordinary])
  rw [fromPath_eq, join_reference (readable_fromPath normal closed), removeDots_of_plain plain]
  rfl

end Fleetwatch.Whatwg
