import Fleetwatch.Auth
import Fleetwatch.Config
import Fleetwatch.Proofs.Acknowledged

/-!
# Whom a token authenticates

A configured pair is a token and the source it should stand for. The header that carries
the token is read back as the token exactly when every character of it is visible, and
the loop over the pairs answers with the last one that has it. So a pair works exactly
when its token can be presented and no later entry gives it to another source.
-/

namespace Fleetwatch

open Bytes Text

/-! ## Comparing bytes -/

theorem foldl_diff_eq_zero_iff (pairs : List (UInt8 × UInt8)) (start : UInt8) :
    pairs.foldl (fun diff (x, y) => diff ||| (x ^^^ y)) start = 0 ↔
      start = 0 ∧ ∀ pair ∈ pairs, pair.1 = pair.2 := by
  induction pairs generalizing start with
  | nil => simp
  | cons pair rest ih =>
    rw [List.foldl_cons, ih, UInt8.or_eq_zero_iff, UInt8.xor_eq_zero_iff, List.forall_mem_cons,
      and_assoc]

/-- Two strings of one length are equal when they agree byte by byte. -/
theorem eq_of_zip {a b : List UInt8} (length : a.length = b.length)
    (agree : ∀ pair ∈ a.zip b, pair.1 = pair.2) : a = b := by
  induction a generalizing b with
  | nil => exact (List.length_eq_zero_iff.mp length.symm).symm
  | cons x a ih =>
    cases b with
    | nil => cases length
    | cons y b =>
      rw [List.zip_cons_cons, List.forall_mem_cons] at agree
      have tail := ih (Nat.succ.inj length) agree.2
      have head : x = y := agree.1
      rw [head, tail]

theorem ctEq_iff {a b : List UInt8} : ctEq a b = true ↔ a = b := by
  unfold ctEq
  by_cases length : a.length = b.length
  · rw [if_neg (not_not.mpr length), beq_iff_eq, foldl_diff_eq_zero_iff, and_iff_right rfl]
    constructor
    · exact eq_of_zip length
    · rintro rfl pair member
      obtain ⟨i, inRange, rfl⟩ := List.mem_iff_getElem.mp member
      simp
  · rw [if_pos length]
    refine iff_of_false Bool.false_ne_true ?_
    intro same
    exact length (congrArg List.length same)

/-! ## What a header says -/

/-- A character `to_str` lets through. -/
def VisibleChar (c : Char) : Prop := (32 ≤ c.toNat ∧ c.toNat < 127) ∨ c.toNat = 9

instance (c : Char) : Decidable (VisibleChar c) :=
  inferInstanceAs (Decidable ((32 ≤ c.toNat ∧ c.toNat < 127) ∨ c.toNat = 9))

/-- Every character of the token is one. -/
def Presentable (token : String) : Prop := ∀ c ∈ token.toList, VisibleChar c

instance (token : String) : Decidable (Presentable token) :=
  inferInstanceAs (Decidable (∀ c ∈ token.toList, VisibleChar c))

theorem ascii_of_visible {c : Char} (visible : VisibleChar c) : c.toNat < 128 := by
  unfold VisibleChar at visible
  omega

theorem isVisible_iff {b : UInt8} :
    isVisible b = true ↔ (32 ≤ b.toNat ∧ b.toNat < 127) ∨ b.toNat = 9 := by
  unfold isVisible
  rw [Bool.or_eq_true, Bool.and_eq_true, decide_eq_true_iff, decide_eq_true_iff, beq_iff_eq,
    UInt8.le_iff_toNat_le, UInt8.lt_iff_toNat_lt, ← UInt8.toNat_inj]
  rfl

/-- The bytes of a character are visible exactly when it is. -/
theorem visible_utf8EncodeChar_iff (c : Char) :
    (∀ b ∈ String.utf8EncodeChar c, isVisible b = true) ↔ VisibleChar c := by
  by_cases ascii : c.toNat < 128
  · have code : (UInt8.ofNat c.toNat).toNat = c.toNat := by
      rw [UInt8.toNat_ofNat']
      exact Nat.mod_eq_of_lt (by omega)
    rw [utf8EncodeChar_of_ascii ascii, List.forall_mem_singleton, isVisible_iff, code]
    rfl
  · obtain ⟨b, member, past⟩ := exists_byte_of_not_ascii (Nat.le_of_not_lt ascii)
    refine iff_of_false ?_ (fun visible => ascii (ascii_of_visible visible))
    intro all
    have visible := isVisible_iff.mp (all b member)
    omega

theorem all_isVisible_utf8 (text : List Char) :
    (utf8 text).all isVisible = true ↔ ∀ c ∈ text, VisibleChar c := by
  rw [List.all_eq_true]
  unfold utf8
  simp only [List.mem_flatMap, forall_exists_index, and_imp]
  constructor
  · intro all c member
    exact (visible_utf8EncodeChar_iff c).mp (fun b inChar => all b c member inChar)
  · intro all b c member inChar
    exact (visible_utf8EncodeChar_iff c).mpr (all c member) b inChar

/-- A header holding the bytes of a visible text is read back as the text, and one holding any
other text is not read at all. -/
theorem toStr_of_visible {text : List Char} (visible : ∀ c ∈ text, VisibleChar c) :
    toStr (utf8 text) = some text := by
  unfold toStr
  rw [if_pos ((all_isVisible_utf8 text).mpr visible),
    map_char_of_ascii (fun c member => ascii_of_visible (visible c member))]

theorem toStr_of_hidden {text : List Char} (hidden : ¬ ∀ c ∈ text, VisibleChar c) :
    toStr (utf8 text) = none := by
  unfold toStr
  rw [if_neg (mt (all_isVisible_utf8 text).mp hidden)]

/-- The value of the header `Authorization: Bearer <token>`. -/
def bearing (token : String) : List UInt8 := utf8 ("Bearer ".toList ++ token.toList)

theorem visible_bearing (token : String) :
    (∀ c ∈ "Bearer ".toList ++ token.toList, VisibleChar c) ↔ Presentable token := by
  have fixed : ∀ c ∈ ['B', 'e', 'a', 'r', 'e', 'r', ' '], VisibleChar c := by
    simp [VisibleChar]
  unfold Presentable
  constructor
  · intro all c member
    exact all c (List.mem_append_right _ member)
  · intro all c member
    rcases List.mem_append.mp member with inFixed | inToken
    · exact fixed c inFixed
    · exact all c inToken

theorem bearer_of_read {headers : HeaderMap} {value : List UInt8} {raw token : List Char}
    (header : headers.get AUTHORIZATION = some value) (read : toStr value = some raw)
    (dropped : raw.dropPrefix? "Bearer ".toList = some token) :
    bearer headers =
      if trim (String.ofList token) = "" then none else some (trim (String.ofList token)) := by
  unfold bearer
  simp only [header, read, dropped, Option.bind_eq_bind, Option.bind_some, Option.orElse]

theorem bearer_of_unread {headers : HeaderMap} {value : List UInt8}
    (header : headers.get AUTHORIZATION = some value) (unread : toStr value = none) :
    bearer headers = none := by
  unfold bearer
  simp only [header, unread, Option.bind_eq_bind, Option.bind_some, Option.bind_none]

/-- The token a request presents: the one of its header, if it can be read. -/
theorem bearer_bearing {headers : HeaderMap} {token : String}
    (header : headers.get AUTHORIZATION = some (bearing token)) (trimmed : trim token = token)
    (nonempty : token ≠ "") :
    bearer headers = if Presentable token then some token else none := by
  by_cases presentable : Presentable token
  · have read := toStr_of_visible ((visible_bearing token).mpr presentable)
    have dropped : ("Bearer ".toList ++ token.toList).dropPrefix? "Bearer ".toList =
        some token.toList := List.dropPrefix?_eq_some_iff.mpr ⟨_, rfl, BEq.refl _⟩
    rw [if_pos presentable, bearer_of_read header read dropped, String.ofList_toList, trimmed,
      if_neg nonempty]
  · have read := toStr_of_hidden (mt (visible_bearing token).mp presentable)
    rw [if_neg presentable, bearer_of_unread header read]

/-! ## The loop over the pairs -/

/-- The last pair with the presented token. -/
def lastMatch (presented : String) (tokens : List (String × String)) : Option String :=
  tokens.foldl (fun matched (source, token) => if presented = token then some source else matched)
    none

theorem authenticate_eq (headers : HeaderMap) (tokens : List (String × String)) :
    authenticate headers tokens =
      (bearer headers).bind (fun presented => lastMatch presented tokens) := by
  have compares : ∀ presented token : String,
      (ctEq (utf8 presented.toList) (utf8 token.toList) = true) = (presented = token) := by
    intro presented token
    rw [ctEq_iff, utf8_injective.eq_iff, String.toList_inj]
  unfold authenticate lastMatch
  simp only [compares]
  rfl

/-- The loop answers with a source exactly when a pair of it has the token and every later
pair with the token is its too. -/
theorem lastMatch_eq_some_iff {presented source : String} {tokens : List (String × String)} :
    lastMatch presented tokens = some source ↔
      ∃ before after, tokens = before ++ (source, presented) :: after ∧
        ∀ later ∈ after, later.2 = presented → later.1 = source := by
  induction tokens using List.reverseRecOn with
  | nil => simp [lastMatch]
  | append_singleton earlier last ih =>
    obtain ⟨owner, token⟩ := last
    have step : lastMatch presented (earlier ++ [(owner, token)]) =
        if presented = token then some owner else lastMatch presented earlier := by
      simp [lastMatch]
    rw [step]
    by_cases here : presented = token
    · subst here
      rw [if_pos rfl, Option.some.injEq]
      constructor
      · rintro rfl
        exact ⟨earlier, [], rfl, by simp⟩
      · rintro ⟨before, after, split, owned⟩
        rcases List.eq_nil_or_concat after with rfl | ⟨after', last, rfl⟩
        · have lastIs := (List.append_inj' split rfl).2
          exact congrArg Prod.fst (List.head_eq_of_cons_eq lastIs)
        · rw [List.concat_eq_append, ← List.cons_append, ← List.append_assoc] at split
          have lastIs := List.head_eq_of_cons_eq (List.append_inj' split rfl).2
          rw [← owned last (by simp) (by rw [← lastIs]), ← lastIs]
    · rw [if_neg here, ih]
      constructor
      · rintro ⟨before, after, rfl, owned⟩
        refine ⟨before, after ++ [(owner, token)], by simp, ?_⟩
        intro later member same
        rcases List.mem_append.mp member with inAfter | isLast
        · exact owned later inAfter same
        · rw [List.mem_singleton.mp isLast] at same
          exact absurd same.symm here
      · rintro ⟨before, after, split, owned⟩
        rcases List.eq_nil_or_concat after with rfl | ⟨after', last, rfl⟩
        · have lastIs := List.head_eq_of_cons_eq (List.append_inj' split rfl).2
          exact absurd (congrArg Prod.snd lastIs).symm here
        · rw [List.concat_eq_append, ← List.cons_append, ← List.append_assoc] at split
          refine ⟨before, after', (List.append_inj' split rfl).1, ?_⟩
          intro later member same
          exact owned later (by simp [member]) same

/-! ## The configuration -/

/-- Every pair an accepted configuration yields has a token, with nothing to trim. -/
theorem parseEntries_token {env : Env} {entries : List String} {pairs : List (String × String)}
    (accepted : parseEntries env entries = .ok pairs) :
    ∀ pair ∈ pairs, pair.2 ≠ "" ∧ trim pair.2 = pair.2 := by
  induction entries generalizing pairs with
  | nil =>
    obtain rfl : [] = pairs := Except.ok.inj accepted
    simp
  | cons entry rest ih =>
    rw [parseEntries] at accepted
    by_cases blank : trim entry = ""
    · simp only [blank, if_true] at accepted
      exact ih accepted
    · simp only [blank, if_false] at accepted
      cases found : splitOnce ':' (trim entry).toList with
      | none =>
        rw [found] at accepted
        cases accepted
      | some pieces =>
        obtain ⟨source, token⟩ := pieces
        simp only [found] at accepted
        split at accepted
        · cases accepted
        · rename_i filled
          obtain ⟨out, tail, result⟩ := bind_eq_ok.mp accepted
          obtain rfl := Except.ok.inj result
          intro pair member
          rcases List.mem_cons.mp member with rfl | later
          · exact ⟨(not_or.mp filled).2, trim_trim _⟩
          · exact ih tail pair later

/-- No later entry of the configuration gives the pair's token to another source. -/
def Owns (pairs : List (String × String)) (pair : String × String) : Prop :=
  ∃ before after, pairs = before ++ pair :: after ∧
    ∀ later ∈ after, later.2 = pair.2 → later.1 = pair.1

/-- Under every accepted configuration a pair's header authenticates as its source exactly
when its token can be presented and no later entry gives the token to another source; and
whatever a request presents, it is authenticated only as a source configured for that. -/
theorem token_authenticates_iff {env : Env} {raw : String} {pairs : List (String × String)}
    (accepted : parseTokens env raw = .ok pairs) :
    (∀ pair ∈ pairs, ∀ headers : HeaderMap,
      headers.get AUTHORIZATION = some (bearing pair.2) →
        (authenticate headers pairs = some pair.1 ↔ Presentable pair.2 ∧ Owns pairs pair)) ∧
    ∀ headers source, authenticate headers pairs = some source →
      ∃ token, bearer headers = some token ∧ (source, token) ∈ pairs := by
  refine ⟨?_, ?_⟩
  · intro pair member headers header
    obtain ⟨nonempty, trimmed⟩ := parseEntries_token accepted pair member
    rw [authenticate_eq, bearer_bearing header trimmed nonempty]
    by_cases presentable : Presentable pair.2
    · rw [if_pos presentable, Option.bind_some, lastMatch_eq_some_iff, and_iff_right presentable]
      rfl
    · rw [if_neg presentable, Option.bind_none]
      exact iff_of_false (by simp) (fun both => presentable both.1)
  · intro headers source authenticated
    rw [authenticate_eq] at authenticated
    obtain ⟨token, presented, found⟩ := Option.bind_eq_some_iff.mp authenticated
    obtain ⟨before, after, split, _⟩ := lastMatch_eq_some_iff.mp found
    exact ⟨token, presented, by rw [split]; simp⟩

theorem token_authenticates_sample :
    authenticate [(AUTHORIZATION, bearing "a:c")] [("amun", "a:c"), ("odin", "def")] =
      some "amun" := by
  have accepted : parseTokens asciiEnv "amun: a:c,odin:def" =
      .ok [("amun", "a:c"), ("odin", "def")] := by decide
  have presentable : Presentable "a:c" := by simp [Presentable, VisibleChar]
  refine ((token_authenticates_iff accepted).1 ("amun", "a:c") (by decide) _ rfl).mpr
    ⟨presentable, ?_⟩
  exact ⟨[], [("odin", "def")], rfl, by decide⟩

/-- One token under two sources: a request that presents it for the first is authenticated
as the second. -/
theorem token_writes_as_another :
    ¬ ∀ env raw pairs, parseTokens env raw = .ok pairs → ∀ pair ∈ pairs, ∀ headers : HeaderMap,
      headers.get AUTHORIZATION = some (bearing pair.2) →
        authenticate headers pairs = some pair.1 := by
  intro claimed
  have authenticated := claimed asciiEnv "amun:abc,odin:abc" [("amun", "abc"), ("odin", "abc")]
    (by decide) ("amun", "abc") (by decide) [(AUTHORIZATION, bearing "abc")] rfl
  exact absurd authenticated (by decide)

end Fleetwatch
