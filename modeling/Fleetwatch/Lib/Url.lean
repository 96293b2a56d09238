import Fleetwatch.Lib.Text
import Mathlib.Data.List.Infix

/-!
# References that begin with a slash

How the WHATWG URL standard resolves such a reference against an `https` URL, and how
the result is written back from its path on. The parser drops tabs and newlines, reads
a backslash as a slash, takes two slashes for the start of a host, removes dot segments
and keeps empty ones. Reading a host and a port is a parameter.

Removing dot segments is a walk up and down a stack, so where a path ends up is told by
levels: a segment stays when nothing after it climbs back above it.
-/

namespace Fleetwatch.Whatwg

/-! ## What the parser reads -/

def isTabOrNewline (c : Char) : Bool := c = '\t' || c = '\n' || c = '\r'

def isC0OrSpace (c : Char) : Bool := c.toNat ≤ 0x20

/-- The text without the controls and spaces around it, and without tabs and newlines. -/
def clean (text : List Char) : List Char :=
  ((text.dropWhile isC0OrSpace).rdropWhile isC0OrSpace).filter (fun c => !isTabOrNewline c)

/-- A backslash is a slash in a special URL. -/
def isSlash (c : Char) : Bool := c = '/' || c = '\\'

/-! ## Paths -/

abbrev Segment := List Char

def isSingleDot (s : Segment) : Bool :=
  s.map Char.toLower = ['.'] || s.map Char.toLower = ['%', '2', 'e']

def isDoubleDot (s : Segment) : Bool :=
  s.map Char.toLower = ['.', '.'] || s.map Char.toLower = ['.', '%', '2', 'e'] ||
    s.map Char.toLower = ['%', '2', 'e', '.'] ||
    s.map Char.toLower = ['%', '2', 'e', '%', '2', 'e']

/-- The segments between the slashes. -/
def segments (text : List Char) : List Segment := text.splitOnP isSlash

/-- The stack a path leaves: two dots take its last segment off, one dot nothing. -/
def walk : List Segment → List Segment → List Segment
  | stack, [] => stack
  | stack, s :: rest =>
    if isDoubleDot s then walk stack.dropLast rest
    else if isSingleDot s then walk stack rest
    else walk (stack ++ [s]) rest

/-- The path without its dot segments; one at the end leaves an empty segment there. -/
def removeDots (path : List Segment) : List Segment :=
  match path.getLast? with
  | some last => if isDoubleDot last || isSingleDot last then walk [] path ++ [[]] else walk [] path
  | none => []

/-! ## Percent encoding -/

/-- The C0 control percent-encode set. -/
def isControl (c : Char) : Bool := c.toNat < 0x20 || 0x7e < c.toNat

/-- `"`, `#`, `<`, `>` and the space. -/
def inQuerySet (c : Char) : Bool := isControl c || c.toNat ∈ [0x20, 0x22, 0x23, 0x3c, 0x3e]

/-- In a special URL the apostrophe too. -/
def inSpecialQuerySet (c : Char) : Bool := inQuerySet c || c.toNat = 0x27

/-- `?`, the grave accent and the braces too. The standard has since added `^`, which a browser
may write as `%5E` where this set leaves it. -/
def inPathSet (c : Char) : Bool := inQuerySet c || c.toNat ∈ [0x3f, 0x60, 0x7b, 0x7d]

/-- The query set without `#`, with the grave accent. -/
def inFragmentSet (c : Char) : Bool := isControl c || c.toNat ∈ [0x20, 0x22, 0x3c, 0x3e, 0x60]

/-- An upper-case hexadecimal digit. -/
def hexDigit (n : Nat) : Char := if n < 10 then Char.ofNat (48 + n) else Char.ofNat (55 + n)

def percentByte (b : UInt8) : List Char :=
  ['%', hexDigit (b.toNat / 16), hexDigit (b.toNat % 16)]

/-- UTF-8 percent-encode the characters of a set. -/
def encode (set : Char → Bool) (text : List Char) : List Char :=
  text.flatMap (fun c => if set c then (String.utf8EncodeChar c).flatMap percentByte else [c])

/-! ## URLs -/

/-- The host and the port of an `https` URL. -/
structure Origin (Host : Type) where
  host : Host
  port : UInt16
  deriving DecidableEq

/-- An `https` URL, as far as its origin and what follows it. -/
structure Url (Host : Type) where
  origin : Origin Host
  path : List Segment
  query : Option (List Char)
  fragment : Option (List Char)

/-- What reads the text after two slashes: a host and a port, and the text they leave. -/
abbrev Authority (Host : Type) := List Char → Option (Origin Host × List Char)

variable {Host : Type}

/-- The text of a path, up to a query or a fragment. -/
def pathText (text : List Char) : List Char := text.takeWhile (fun c => c ≠ '?' && c ≠ '#')

def queryText (text : List Char) : Option (List Char) :=
  match text.dropWhile (fun c => c ≠ '?' && c ≠ '#') with
  | '?' :: rest => some (rest.takeWhile (· ≠ '#'))
  | _ => none

def fragmentText (text : List Char) : Option (List Char) :=
  match text.dropWhile (· ≠ '#') with
  | '#' :: rest => some rest
  | _ => none

/-- A URL of an origin, its path read after the first slash. -/
def ofPath (origin : Origin Host) (text : List Char) : Url Host :=
  { origin := origin
    path := removeDots (segments (pathText text))
    query := queryText text
    fragment := fragmentText text }

/-- The slash a path begins with, passed over. -/
def skipSlash : List Char → List Char
  | c :: rest => if isSlash c then rest else c :: rest
  | [] => []

/-- Which origin a cleaned reference names, and the text of its path after the first slash:
nothing where the host cannot be read, or the reference does not begin with a slash. -/
def locate (authority : Authority Host) (base : Origin Host) :
    List Char → Option (Origin Host × List Char)
  | c :: d :: rest =>
    if isSlash c && isSlash d then
      (authority rest).map (fun (origin, left) => (origin, skipSlash left))
    else if isSlash c then some (base, d :: rest)
    else none
  | [c] => if isSlash c then some (base, []) else none
  | [] => none

/-- Resolve a reference that begins with a slash against a URL of the origin. -/
def join (authority : Authority Host) (base : Origin Host) (reference : List Char) :
    Option (Url Host) :=
  (locate authority base (clean reference)).map (fun (origin, text) => ofPath origin text)

/-- The URL written from its path on. -/
def fromPath (u : Url Host) : List Char :=
  u.path.flatMap (fun s => '/' :: encode inPathSet s) ++
    (match u.query with
      | some q => '?' :: encode inSpecialQuerySet q
      | none => []) ++
    (match u.fragment with
      | some f => '#' :: encode inFragmentSet f
      | none => [])

/-! ## Levels -/

/-- The height of the stack, from height `n`. -/
def level : Nat → List Segment → Nat
  | n, [] => n
  | n, s :: rest =>
    level (if isDoubleDot s then n - 1 else if isSingleDot s then n else n + 1) rest

/-- No part of the path climbs back to the root from one level below it. -/
def StaysBelow (path : List Segment) : Prop := ∀ part, part <+: path → 1 ≤ level 1 part

/-- An empty segment at the root, with something after it and nothing that climbs above it. -/
def EmptyAtRoot (path : List Segment) : Prop :=
  ∃ before after, path = before ++ [] :: after ∧ after ≠ [] ∧ level 0 before = 0 ∧
    StaysBelow after

theorem length_walk (stack path : List Segment) :
    (walk stack path).length = level stack.length path := by
  induction path generalizing stack with
  | nil => rfl
  | cons s rest ih =>
    rw [walk, level]
    split
    · rw [ih, List.length_dropLast]
    · split
      · rw [ih]
      · rw [ih, List.length_append, List.length_singleton]

theorem level_eq_zero_of_walk {path : List Segment} (root : walk [] path = []) :
    level 0 path = 0 := by
  have height := length_walk [] path
  rw [root] at height
  exact height.symm

theorem walk_eq_nil_of_level {path : List Segment} (root : level 0 path = 0) :
    walk [] path = [] :=
  List.eq_nil_of_length_eq_zero ((length_walk [] path).trans root)

theorem removeDots_concat (init : List Segment) (last : Segment) :
    removeDots (init ++ [last]) =
      if isDoubleDot last || isSingleDot last then walk [] (init ++ [last]) ++ [[]]
      else walk [] (init ++ [last]) := by
  rw [removeDots, List.getLast?_concat]

theorem walk_append (stack first second : List Segment) :
    walk stack (first ++ second) = walk (walk stack first) second := by
  induction first generalizing stack with
  | nil => rfl
  | cons s rest ih =>
    rw [List.cons_append, walk, walk]
    split
    · exact ih _
    · split
      · exact ih _
      · exact ih _

theorem walk_doubleDot {stack : List Segment} {s : Segment} (double : isDoubleDot s = true) :
    walk stack [s] = stack.dropLast := by
  rw [walk, if_pos double, walk]

theorem walk_singleDot {stack : List Segment} {s : Segment} (double : ¬ isDoubleDot s = true)
    (single : isSingleDot s = true) : walk stack [s] = stack := by
  rw [walk, if_neg double, if_pos single, walk]

theorem walk_ordinary {stack : List Segment} {s : Segment} (double : ¬ isDoubleDot s = true)
    (single : ¬ isSingleDot s = true) : walk stack [s] = stack ++ [s] := by
  rw [walk, if_neg double, if_neg single, walk]

theorem level_append (n : Nat) (first second : List Segment) :
    level n (first ++ second) = level (level n first) second := by
  induction first generalizing n with
  | nil => rfl
  | cons s rest ih => exact ih _

/-- A path that stays above a segment leaves it at the bottom of the stack. -/
theorem walk_cons_of_below (s : Segment) (stack path : List Segment)
    (below : ∀ part, part <+: path → 1 ≤ level (stack.length + 1) part) :
    walk (s :: stack) path = s :: walk stack path := by
  induction path generalizing stack with
  | nil => rfl
  | cons t rest ih =>
    have rest' : ∀ n, level (stack.length + 1) [t] = n + 1 →
        ∀ part, part <+: rest → 1 ≤ level (n + 1) part := by
      intro n first part within
      have longer := below (t :: part) (List.cons_prefix_cons.mpr ⟨rfl, within⟩)
      have split' : level (stack.length + 1) (t :: part) =
          level (level (stack.length + 1) [t]) part := level_append _ [t] part
      rw [split', first] at longer
      exact longer
    have here := below [t] (List.cons_prefix_cons.mpr ⟨rfl, List.nil_prefix⟩)
    rw [walk, walk]
    by_cases double : isDoubleDot t = true
    · have climbs : level (stack.length + 1) [t] = stack.length := by simp [level, double]
      rw [climbs] at here
      have filled : stack ≠ [] := List.ne_nil_of_length_pos here
      have height : stack.dropLast.length + 1 = stack.length := by
        rw [List.length_dropLast]
        omega
      rw [if_pos double, if_pos double, List.dropLast_cons_of_ne_nil filled]
      exact ih _ (rest' _ (climbs.trans height.symm))
    · rw [if_neg double, if_neg double]
      by_cases single : isSingleDot t = true
      · rw [if_pos single, if_pos single]
        exact ih _ (rest' _ (by simp [level, double, single]))
      · rw [if_neg single, if_neg single, List.cons_append]
        refine ih _ (rest' _ ?_)
        simp [level, double, single]

theorem staysBelow_append_singleton {path : List Segment} {s : Segment} (below : StaysBelow path)
    (last : 1 ≤ level 1 (path ++ [s])) : StaysBelow (path ++ [s]) := by
  intro part within
  rcases List.prefix_concat_iff.mp within with rfl | earlier
  · exact last
  · exact below part earlier

/-- The bottom of the stack a path leaves is the segment nothing after it climbs above. -/
theorem exists_bottom {path : List Segment} {s : Segment} {stack : List Segment}
    (left : walk [] path = s :: stack) :
    ∃ before after, path = before ++ s :: after ∧ walk [] before = [] ∧
      walk [] (before ++ [s]) = [s] ∧ StaysBelow after := by
  induction path using List.reverseRecOn generalizing s stack with
  | nil => cases left
  | append_singleton path t ih =>
    -- the bottom of the shorter path stays the bottom
    have extend : ∀ stack', walk [] path = s :: stack' →
        ∃ before after, path ++ [t] = before ++ s :: after ∧ walk [] before = [] ∧
          walk [] (before ++ [s]) = [s] ∧ StaysBelow after := by
      intro stack' earlier
      obtain ⟨before, after, rfl, root, lone, below⟩ := ih earlier
      refine ⟨before, after ++ [t], by simp, root, lone, staysBelow_append_singleton below ?_⟩
      have whole : walk [] (before ++ s :: after ++ [t]) = walk [s] (after ++ [t]) := by
        rw [← lone, ← walk_append]
        simp
      have heights : level 1 (after ++ [t]) = stack.length + 1 := by
        calc level 1 (after ++ [t])
            = (walk [s] (after ++ [t])).length := (length_walk [s] _).symm
          _ = (s :: stack).length := by rw [← whole, left]
      rw [heights]
      exact Nat.le_add_left 1 _
    rw [walk_append] at left
    by_cases double : isDoubleDot t = true
    · rw [walk_doubleDot double] at left
      cases earlier : walk [] path with
      | nil =>
        rw [earlier] at left
        cases left
      | cons s' stack' =>
        rw [earlier] at left
        have filled : stack' ≠ [] := by
          rintro rfl
          cases left
        rw [List.dropLast_cons_of_ne_nil filled] at left
        obtain rfl := (List.cons.inj left).1
        exact extend stack' earlier
    · by_cases single : isSingleDot t = true
      · rw [walk_singleDot double single] at left
        exact extend stack left
      · rw [walk_ordinary double single] at left
        cases earlier : walk [] path with
        | nil =>
          rw [earlier] at left
          obtain rfl : t = s := (List.cons.inj left).1
          refine ⟨path, [], rfl, earlier, ?_, ?_⟩
          · rw [walk_append, walk_ordinary double single, earlier]
            rfl
          · intro part within
            rw [List.prefix_nil.mp within]
            exact le_refl 1
        | cons s' stack' =>
          rw [earlier] at left
          obtain rfl := (List.cons.inj left).1
          exact extend stack' earlier

/-- What the removal of dot segments opens with is told by the levels of the path. -/
theorem removeDots_opens_iff {path : List Segment} :
    (∃ t rest, removeDots path = [] :: t :: rest) ↔ EmptyAtRoot path := by
  cases path using List.reverseRecOn with
  | nil =>
    constructor
    · rintro ⟨t, rest, opens⟩
      cases opens
    · rintro ⟨before, after, whole, -⟩
      cases before <;> cases whole
  | append_singleton init last =>
    rw [removeDots_concat]
    constructor
    · rintro ⟨t, rest, opens⟩
      split at opens
      · rename_i dots
        obtain ⟨stack, left⟩ : ∃ stack, walk [] (init ++ [last]) = [] :: stack := by
          cases left : walk [] (init ++ [last]) with
          | nil =>
            rw [left] at opens
            cases opens
          | cons s stack =>
            rw [left] at opens
            exact ⟨stack, by rw [(List.cons.inj opens).1]⟩
        obtain ⟨before, after, whole, root, -, below⟩ := exists_bottom left
        refine ⟨before, after, whole, ?_, level_eq_zero_of_walk root, below⟩
        rintro rfl
        have same : [last] = [[]] := List.append_inj_right' whole rfl
        obtain rfl := (List.cons.inj same).1
        cases dots
      · obtain ⟨before, after, whole, root, lone, below⟩ := exists_bottom opens
        refine ⟨before, after, whole, ?_, level_eq_zero_of_walk root, below⟩
        rintro rfl
        rw [whole, lone] at opens
        cases opens
    · rintro ⟨before, after, whole, later, root, below⟩
      have bottom : walk [] (init ++ [last]) = [] :: walk [] after := by
        rw [whole, walk_append, walk_eq_nil_of_level root]
        exact walk_cons_of_below [] [] after below
      split
      · rw [bottom]
        cases walk [] after with
        | nil => exact ⟨[], [], rfl⟩
        | cons t rest => exact ⟨t, rest ++ [[]], rfl⟩
      · rename_i ordinary
        obtain ⟨front, rfl⟩ : ∃ front, after = front ++ [last] := by
          refine ⟨after.dropLast, ?_⟩
          have lasts : (init ++ [last]).getLast? = ([] :: after).getLast? := by
            rw [whole, List.getLast?_append_of_ne_nil _ (List.cons_ne_nil _ _)]
          rw [List.getLast?_concat, List.getLast?_cons_of_ne_nil later] at lasts
          exact (List.dropLast_append_getLast? last lasts.symm).symm
        rw [Bool.or_eq_true, not_or] at ordinary
        rw [bottom, walk_append, walk_ordinary ordinary.1 ordinary.2]
        cases walk [] front with
        | nil => exact ⟨last, [], rfl⟩
        | cons t rest => exact ⟨t, rest ++ [last], rfl⟩

/-! ## What a path is made of -/

theorem mem_walk {stack path : List Segment} {s : Segment} (member : s ∈ walk stack path) :
    s ∈ stack ∨ s ∈ path := by
  induction path generalizing stack with
  | nil => exact .inl member
  | cons t rest ih =>
    rw [walk] at member
    split at member
    · exact (ih member).imp List.mem_of_mem_dropLast (List.mem_cons_of_mem t)
    · split at member
      · exact (ih member).imp_right (List.mem_cons_of_mem t)
      · rcases ih member with earlier | later
        · rcases List.mem_append.mp earlier with old | new
          · exact .inl old
          · exact .inr (List.mem_singleton.mp new ▸ List.mem_cons_self)
        · exact .inr (List.mem_cons_of_mem t later)

theorem mem_removeDots {path : List Segment} {s : Segment} (member : s ∈ removeDots path) :
    s ∈ path ∨ s = [] := by
  have walked : s ∈ walk [] path ++ [[]] := by
    rw [removeDots] at member
    split at member
    · split at member
      · exact member
      · exact List.mem_append_left _ member
    · cases member
  rcases List.mem_append.mp walked with kept | new
  · exact .inl ((mem_walk kept).resolve_left List.not_mem_nil)
  · exact .inr (List.mem_singleton.mp new)

theorem removeDots_ne_nil {path : List Segment} (filled : path ≠ []) : removeDots path ≠ [] := by
  rw [← List.dropLast_append_getLast filled, removeDots_concat]
  split
  · exact List.append_ne_nil_of_right_ne_nil _ (List.cons_ne_nil _ _)
  · rename_i ordinary
    rw [Bool.or_eq_true, not_or] at ordinary
    rw [walk_append, walk_ordinary ordinary.1 ordinary.2]
    exact List.append_ne_nil_of_right_ne_nil _ (List.cons_ne_nil _ _)

theorem not_isSlash_of_mem_segments {text : List Char} {s : Segment} {c : Char}
    (segment : s ∈ segments text) (member : c ∈ s) : isSlash c = false :=
  (Text.of_mem_splitOnP segment member).2

/-! ## What is written -/

/-- A text the parser reads as it stands. -/
def Printed (text : List Char) : Prop := ∀ c ∈ text, isC0OrSpace c = false

theorem isC0OrSpace_of_isTabOrNewline {c : Char} (dropped : isTabOrNewline c = true) :
    isC0OrSpace c = true := by
  simp only [isTabOrNewline, Bool.or_eq_true, decide_eq_true_eq] at dropped
  rcases dropped with (rfl | rfl) | rfl
  · rfl
  · rfl
  · rfl

theorem clean_of_printed {text : List Char} (printed : Printed text) : clean text = text := by
  have front : text.dropWhile isC0OrSpace = text := by
    cases text with
    | nil => rfl
    | cons c rest => rw [List.dropWhile_cons_of_neg (by simp [printed c List.mem_cons_self])]
  have back : text.rdropWhile isC0OrSpace = text := by
    rw [List.rdropWhile_eq_self_iff]
    intro filled
    simp [printed _ (List.getLast_mem filled)]
  rw [clean, front, back, List.filter_eq_self]
  intro c member
  cases dropped : isTabOrNewline c with
  | true => exact absurd (isC0OrSpace_of_isTabOrNewline dropped) (by simp [printed c member])
  | false => rfl

theorem hexDigit_printed : ∀ n < 16, isC0OrSpace (hexDigit n) = false := by decide

theorem printed_percentByte (b : UInt8) : Printed (percentByte b) := by
  intro c member
  have bounded : b.toNat < 256 := b.toNat_lt
  simp only [percentByte, List.mem_cons, List.not_mem_nil, or_false] at member
  rcases member with rfl | rfl | rfl
  · rfl
  · exact hexDigit_printed _ (by omega)
  · exact hexDigit_printed _ (by omega)

theorem printed_encode {set : Char → Bool} (wide : ∀ c, isC0OrSpace c = true → set c = true)
    (text : List Char) : Printed (encode set text) := by
  intro c member
  obtain ⟨d, -, written⟩ := List.mem_flatMap.mp member
  split at written
  · obtain ⟨b, -, byte⟩ := List.mem_flatMap.mp written
    exact printed_percentByte b c byte
  · rename_i plain
    obtain rfl := List.mem_singleton.mp written
    exact Bool.eq_false_iff.mpr (fun control => plain (wide c control))

theorem inQuerySet_of_isC0OrSpace {c : Char} (control : isC0OrSpace c = true) :
    inQuerySet c = true := by
  have bound : c.toNat ≤ 0x20 := of_decide_eq_true control
  rcases Nat.lt_or_eq_of_le bound with lower | space
  · simp [inQuerySet, isControl, lower]
  · simp [inQuerySet, space]

theorem inFragmentSet_of_isC0OrSpace {c : Char} (control : isC0OrSpace c = true) :
    inFragmentSet c = true := by
  have bound : c.toNat ≤ 0x20 := of_decide_eq_true control
  rcases Nat.lt_or_eq_of_le bound with lower | space
  · simp [inFragmentSet, isControl, lower]
  · simp [inFragmentSet, space]

theorem printed_append {first second : List Char} (h : Printed first) (h' : Printed second) :
    Printed (first ++ second) := fun c member => (List.mem_append.mp member).elim (h c) (h' c)

theorem printed_cons {c : Char} {rest : List Char} (h : isC0OrSpace c = false)
    (h' : Printed rest) : Printed (c :: rest) := by
  intro d member
  rcases List.mem_cons.mp member with rfl | later
  · exact h
  · exact h' d later

theorem printed_fromPath (u : Url Host) : Printed (fromPath u) := by
  refine printed_append (printed_append ?_ ?_) ?_
  · intro c member
    obtain ⟨s, -, inner⟩ := List.mem_flatMap.mp member
    refine printed_cons (by decide) (printed_encode (fun d control => ?_) s) c inner
    rw [inPathSet, inQuerySet_of_isC0OrSpace control, Bool.true_or]
  · cases u.query with
    | none => exact fun c member => absurd member List.not_mem_nil
    | some q =>
      refine printed_cons (by decide) (printed_encode (fun d control => ?_) q)
      rw [inSpecialQuerySet, inQuerySet_of_isC0OrSpace control, Bool.true_or]
  · cases u.fragment with
    | none => exact fun c member => absurd member List.not_mem_nil
    | some f =>
      exact printed_cons (by decide)
        (printed_encode (fun d control => inFragmentSet_of_isC0OrSpace control) f)

theorem encode_eq_nil {set : Char → Bool} {text : List Char} (written : encode set text = []) :
    text = [] := by
  cases text with
  | nil => rfl
  | cons c rest =>
    rw [encode, List.flatMap_cons, List.append_eq_nil_iff] at written
    have first := written.1
    split at first
    · cases bytes : String.utf8EncodeChar c with
      | nil => exact absurd bytes String.utf8EncodeChar_ne_nil
      | cons b more =>
        rw [bytes] at first
        cases first
    · cases first

/-- An encoded segment opens with no slash. -/
theorem head_encode_inPathSet {s : Segment} {c : Char} {rest : List Char}
    (free : ∀ d ∈ s, isSlash d = false) (written : encode inPathSet s = c :: rest) :
    isSlash c = false := by
  cases s with
  | nil => cases written
  | cons d others =>
    rw [encode, List.flatMap_cons] at written
    split at written
    · cases bytes : String.utf8EncodeChar d with
      | nil => exact absurd bytes String.utf8EncodeChar_ne_nil
      | cons b more =>
        rw [bytes] at written
        obtain rfl := (List.cons.inj written).1
        rfl
    · obtain rfl := (List.cons.inj written).1
      exact free d List.mem_cons_self

/-- A URL whose path opens with two empty segments is read back as a host. -/
theorem join_fromPath_of_opens {u : Url Host} {t : Segment} {rest : List Segment}
    (opens : u.path = [] :: t :: rest) :
    ∃ text, ∀ (authority : Authority Host) (site : Origin Host),
      join authority site (fromPath u) =
        (authority text).map (fun (origin, left) => ofPath origin (skipSlash left)) := by
  obtain ⟨text, written⟩ : ∃ text, fromPath u = '/' :: '/' :: text := by
    rw [fromPath, opens]
    exact ⟨_, rfl⟩
  refine ⟨text, fun authority site => ?_⟩
  rw [join, clean_of_printed (printed_fromPath u), written, locate,
    if_pos (show (isSlash '/' && isSlash '/') = true from rfl), Option.map_map]
  rfl

/-- Any other is read back at the site it is resolved against. -/
theorem join_fromPath_of_not_opens {u : Url Host} (filled : u.path ≠ [])
    (free : ∀ s ∈ u.path, ∀ c ∈ s, isSlash c = false)
    (closed : ¬ ∃ t rest, u.path = [] :: t :: rest) (authority : Authority Host)
    (site : Origin Host) :
    ∃ text, join authority site (fromPath u) = some (ofPath site text) := by
  obtain ⟨text, written, plain⟩ : ∃ text, fromPath u = '/' :: text ∧
      ∀ c rest, text = c :: rest → isSlash c = false := by
    obtain ⟨s, others, split⟩ := List.exists_cons_of_ne_nil filled
    rw [fromPath, split, List.flatMap_cons, List.cons_append, List.cons_append, List.cons_append]
    refine ⟨_, rfl, ?_⟩
    intro c rest opens
    cases encoded : encode inPathSet s with
    | cons d more =>
      rw [encoded] at opens
      obtain rfl := (List.cons.inj opens).1
      exact head_encode_inPathSet (free s (split ▸ List.mem_cons_self)) encoded
    | nil =>
      obtain rfl := encode_eq_nil encoded
      have alone : others = [] := by
        cases others with
        | nil => rfl
        | cons t more => exact absurd ⟨t, more, split⟩ closed
      rw [alone, encoded, List.flatMap_nil, List.nil_append, List.nil_append] at opens
      cases query : u.query with
      | some q =>
        rw [query] at opens
        obtain rfl := (List.cons.inj opens).1
        rfl
      | none =>
        cases fragment : u.fragment with
        | some f =>
          rw [query, fragment] at opens
          obtain rfl := (List.cons.inj opens).1
          rfl
        | none =>
          rw [query, fragment] at opens
          cases opens
  rw [join, clean_of_printed (printed_fromPath u), written]
  cases text with
  | nil => exact ⟨[], rfl⟩
  | cons d more =>
    rw [locate, plain d more rfl]
    exact ⟨d :: more, rfl⟩

end Fleetwatch.Whatwg
