import Tcpdumpw.Proof.CreateTasks

/-!
# Metacharacters in `PCAP_IFACE`

`createTasks` puts `PCAP_IFACE` into its pattern unquoted (line 190), so a metacharacter in it
changes the pattern's structure.

* `selects_alternation`: `|` binds looser than concatenation. With `PCAP_IFACE = a|b` the
  pattern `^(?:ipvlan-)?a|b\d+.*` is the alternation of `^(?:ipvlan-)?a` and `b\d+.*`: the
  anchor and the optional `ipvlan-` apply to `a` only, and the digits to `b` only. For `a` and
  `b` with no metacharacter, the pattern compiles, and the matcher selects a name exactly when
  it starts with an optional `ipvlan-` and `a`, whatever follows, or when `b` followed by a
  digit occurs anywhere in it.
* `paren_panics`: a single `(` or `)` in `PCAP_IFACE` makes `regexp.MustCompile` panic, so
  `createTasks` never lists an interface.
-/

namespace Tcpdumpw

namespace Regexp

/-! ## Lexing and parsing -/

/-- A `?` not followed by `?` is a greedy `?`. -/
theorem lex_quest {c : Char} (hc : c ≠ '?') (t : List Char) :
    lex ('?' :: c :: t) = (Token.quest :: ·) <$> lex (c :: t) := by
  simp [lex, hc]

/-- The tokens of the interface pattern for `PCAP_IFACE = a ++ [c] ++ b`, where `c` lexes
to `t`. -/
def splitTokens (a : List Char) (t : Token) (b : List Char) : List Token :=
  [.caret, .lparen, .lit 'i', .lit 'p', .lit 'v', .lit 'l', .lit 'a', .lit 'n', .lit '-', .rparen,
    .quest] ++ (a.map Token.lit ++ t :: (b.map Token.lit ++ [.digit, .plus, .dot, .star]))

/-- The interface pattern for `PCAP_IFACE = a ++ [c] ++ b`, with `a` and `b` read as
literals, lexes to `a`'s literals, `c`'s token and `b`'s literals inside the fixed pattern. -/
theorem lex_splitRegexp {a b : String} (ha : literalOnly a.data = true)
    (hb : literalOnly b.data = true) {c : Char} (hc : c ≠ '?') (hs : countStop c = true) {t : Token}
    (ht : lex (c :: (b.data ++ "\\d+.*".data)) = (t :: ·) <$> lex (b.data ++ "\\d+.*".data)) :
    lex (ifaceRegexp (a ++ String.singleton c ++ b)).data = .ok (splitTokens a.data t b.data) := by
  have hsuf : lex "\\d+.*".data = .ok [.digit, .plus, .dot, .star] := rfl
  have hmid : lex (a.data ++ c :: (b.data ++ "\\d+.*".data)) =
      .ok (a.data.map Token.lit ++ t :: (b.data.map Token.lit ++ [.digit, .plus, .dot, .star])) := by
    rw [lex_append_lits ha (by simpa using hs), ht, lex_append_lits hb (by decide), hsuf]
    rfl
  simp only [ifaceRegexp, String.data_append, List.append_assoc]
  rw [show "^(?:ipvlan-)?".data ++ (a.data ++ ((String.singleton c).data ++ (b.data ++ "\\d+.*".data))) =
    '^' :: '(' :: '?' :: ':' :: 'i' :: 'p' :: 'v' :: 'l' :: 'a' :: 'n' :: '-' :: ')' ::
      '?' :: (a.data ++ c :: (b.data ++ "\\d+.*".data)) from rfl]
  simp only [lex, lex_quest_lits (s := c :: (b.data ++ "\\d+.*".data)) ha (by simpa using hc), hmid]
  rfl

/-- Pushing literals adds them to the branch being read. -/
theorem foldl_push (p : List Char) (st : PState) :
    (p.foldl (fun st c => st.push (.literal c)) st).cur =
        { st.cur with items := (p.map literal).reverse ++ st.cur.items } ∧
      (p.foldl (fun st c => st.push (.literal c)) st).outer = st.outer := by
  induction p generalizing st with
  | nil => simp
  | cons c p ih =>
    rw [List.foldl_cons, (ih _).1, (ih _).2]
    simp [PState.push]

/-- The tree of `^(?:ipvlan-)?a|b\d+.*`. -/
def altTree (a b : List Char) : Regexp :=
  alternate (concatOf (beginText :: ipvlan :: a.map literal))
    (concatOf (b.map literal ++ [plus digit, star anyCharNotNL]))

/-- After `^(?:ipvlan-)?` the parser is back at the top level, with two items read. -/
theorem foldlM_prefix : ([Token.caret, .lparen, .lit 'i', .lit 'p', .lit 'v', .lit 'l', .lit 'a',
    .lit 'n', .lit '-', .rparen, .quest].foldlM PState.step PState.init) =
      .ok ⟨⟨[], [ipvlan, beginText]⟩, [], true⟩ := rfl

theorem parse_altTokens (a b : List Char) : parse (splitTokens a .bar b) = .ok (altTree a b) := by
  have hbar : ∀ st : PState, st.step .bar =
      .ok ⟨⟨st.cur.alts ++ [concatOf st.cur.items.reverse], []⟩, st.outer, false⟩ := fun _ => rfl
  obtain ⟨hcur, hout⟩ := foldl_push a ⟨⟨[], [ipvlan, beginText]⟩, [], true⟩
  rw [parse, splitTokens, List.foldlM_append, foldlM_prefix]
  simp only [ok_bind, List.foldlM_append, foldlM_lits, List.foldlM_cons, hbar, hcur, hout, PState.step, foldl_push_push,
    PState.repeat]
  simp [PState.push, ok_bind, Frame.close, altTree, alternateOf, concatOf]
  rfl

/-- **`PCAP_IFACE = a|b` compiles**, for `a` and `b` read as literals. -/
theorem compile_altRegexp {a b : String} (ha : literalOnly a.data = true)
    (hb : literalOnly b.data = true) :
    compile (ifaceRegexp (a ++ "|" ++ b)) = .ok (altTree a.data b.data) := by
  have hl := lex_splitRegexp ha hb (c := '|') (t := .bar) (by decide) (by decide) (by simp [lex])
  simp only [compile, String.toList]
  exact (congrArg (· >>= parse) hl).trans (parse_altTokens _ _)

/-- A `(` not followed by `?` opens a capturing group. -/
theorem lex_lparen {c : Char} (hc : c ≠ '?') (t : List Char) :
    lex ('(' :: c :: t) = (Token.lparen :: ·) <$> lex (c :: t) := by
  simp [lex, hc]

/-- `a)b`: the `)` closes no group. -/
theorem parse_rparenTokens (a b : List Char) :
    parse (splitTokens a .rparen b) = .error (.invalid .unexpectedParen) := by
  obtain ⟨-, hout⟩ := foldl_push a ⟨⟨[], [ipvlan, beginText]⟩, [], true⟩
  rw [parse, splitTokens, List.foldlM_append, foldlM_prefix]
  simp only [ok_bind, List.foldlM_append, foldlM_lits, List.foldlM_cons, PState.step, hout]
  rfl

/-- `a(b`: the `(` opens a group that nothing closes. -/
theorem parse_lparenTokens (a b : List Char) :
    parse (splitTokens a .lparen b) = .error (.invalid .missingParen) := by
  rw [parse, splitTokens, List.foldlM_append, foldlM_prefix]
  simp only [ok_bind, List.foldlM_append, foldlM_lits, List.foldlM_cons, PState.step, foldl_push_push, PState.repeat]
  simp [PState.push, ok_bind, (foldl_push b _).2]
  rfl

/-! ## Matching -/

theorem matchString_alternate (x y : Regexp) (w : List Char) :
    (alternate x y).matchString w = (x.matchString w || y.matchString w) := by
  have h : ∀ l₁ l₂ : List (List Char), (!(l₁ ++ l₂).isEmpty) = (!l₁.isEmpty || !l₂.isEmpty) := by
    intro l₁ l₂; cases l₁ <;> cases l₂ <;> rfl
  rw [Bool.eq_iff_iff, Bool.or_eq_true]
  simp only [matchString, suffixes, h, List.any_eq_true, Bool.or_eq_true, and_or_left, exists_or]

/-- A tree with no `^` matches a name when it matches from some position of it. -/
theorem matchString_startFree {r : Regexp} (hr : r.startFree = true) (w : List Char) :
    r.matchString w = true ↔ ∃ i ≤ w.length, (suffixes r false (w.drop i)).isEmpty = false := by
  simp only [matchString, List.any_eq_true, List.mem_range, suffixes_start hr _,
    Bool.not_eq_true', Nat.lt_succ_iff]

/-- `^(?:ipvlan-)?a` matches at the start of the name. -/
theorem suffixes_ipvlanLits_isEmpty (a w : List Char) :
    (suffixes (concatOf (ipvlan :: a.map literal)) false w).isEmpty = false ↔
      ∃ q ∈ [[], "ipvlan-".data], ∃ r, w = q ++ a ++ r := by
  have ha := fun w₁ w' => @mem_suffixes_lits a [] w₁ w'
  simp only [List.append_nil] at ha
  rw [List.isEmpty_eq_false_iff_exists_mem]
  simp only [mem_suffixes_concatOf_cons, Bool.false_and, ha, mem_suffixes_ipvlan, concatOf,
    mem_suffixes_emptyMatch]
  constructor
  · rintro ⟨w', w₁, hq, r, rfl, rfl⟩
    rcases hq with rfl | rfl
    · exact ⟨[], by simp, w', by simp⟩
    · exact ⟨"ipvlan-".data, by simp, w', by simp⟩
  · rintro ⟨q, hq, r, rfl⟩
    simp only [List.mem_cons, List.mem_singleton, List.not_mem_nil, or_false] at hq
    rcases hq with rfl | rfl
    · exact ⟨r, _, .inl rfl, r, by simp, rfl⟩
    · exact ⟨r, a ++ r, .inr (by simp), r, rfl, rfl⟩

/-- `b\d+.*` matches at `w` when `w` starts with `b` and a digit. -/
theorem suffixes_litsDigits_isEmpty (b w : List Char) :
    (suffixes (concatOf (b.map literal ++ [plus digit, star anyCharNotNL])) false w).isEmpty = false ↔
      ∃ c r, c.isDigit ∧ w = b ++ c :: r := by
  rw [List.isEmpty_eq_false_iff_exists_mem]
  simp only [mem_suffixes_lits]
  constructor
  · rintro ⟨w', w₁, rfl, hw'⟩
    obtain ⟨c, r, hc, rfl⟩ := suffixes_digits_isEmpty.1 (List.isEmpty_eq_false_iff_exists_mem.2 ⟨w', hw'⟩)
    exact ⟨c, r, hc, rfl⟩
  · rintro ⟨c, r, hc, rfl⟩
    obtain ⟨w', hw'⟩ := List.isEmpty_eq_false_iff_exists_mem.1 (suffixes_digits_isEmpty.2 ⟨c, r, hc, rfl⟩)
    exact ⟨w', c :: r, rfl, hw'⟩

theorem matchString_altTree (a b n : List Char) :
    (altTree a b).matchString n = true ↔
      (∃ q ∈ [[], "ipvlan-".data], ∃ r, n = q ++ a ++ r) ∨
        ∃ u c r, c.isDigit ∧ n = u ++ b ++ c :: r := by
  have hx : (concatOf (beginText :: ipvlan :: a.map literal)).matchString n =
      !(suffixes (concatOf (ipvlan :: a.map literal)) false n).isEmpty := by
    rw [show concatOf (beginText :: ipvlan :: a.map literal) =
      concat beginText (concatOf (ipvlan :: a.map literal)) from rfl]
    exact matchString_beginText _ (startFree_concatOf (by
      simp only [List.mem_cons, List.mem_map]
      rintro x (rfl | ⟨c, -, rfl⟩) <;> rfl)) n
  have hfree : (concatOf (b.map literal ++ [plus digit, star anyCharNotNL])).startFree := by
    apply startFree_concatOf
    simp only [List.mem_append, List.mem_map, List.mem_cons, List.mem_singleton, List.not_mem_nil,
      or_false]
    rintro x ((⟨c, -, rfl⟩) | rfl | rfl) <;> rfl
  rw [altTree, matchString_alternate, Bool.or_eq_true, hx, matchString_startFree hfree]
  simp only [Bool.not_eq_true', suffixes_ipvlanLits_isEmpty, suffixes_litsDigits_isEmpty]
  apply or_congr Iff.rfl
  constructor
  · rintro ⟨i, -, c, r, hc, h⟩
    exact ⟨n.take i, c, r, hc, by rw [List.append_assoc, ← h, List.take_append_drop]⟩
  · rintro ⟨u, c, r, hc, rfl⟩
    exact ⟨u.length, by simp, c, r, hc, by simp⟩

end Regexp

open Regexp

/-- **`PCAP_IFACE = a|b` selects two unrelated sets of names.** For `a` and `b` read as
literals the pattern compiles, and the matcher selects a name exactly when it starts with an
optional `ipvlan-` and `a`, with or without digits after it, or when `b` followed by a digit
occurs anywhere in it. -/
theorem selects_alternation (a b : String) (ha : literalOnly a.data = true)
    (hb : literalOnly b.data = true) (n : String) :
    ∃ v, selects (a ++ "|" ++ b) n = .ok v ∧
      (v = true ↔ (∃ q ∈ [[], "ipvlan-".data], ∃ r, n.data = q ++ a.data ++ r) ∨
        ∃ u c r, c.isDigit ∧ n.data = u ++ b.data ++ c :: r) := by
  have hs : selects (a ++ "|" ++ b) n = .ok ((altTree a.data b.data).matchString n.data) := by
    unfold selects
    rw [compile_altRegexp ha hb]
    rfl
  exact ⟨_, hs, matchString_altTree _ _ _⟩

/-- With `PCAP_IFACE = eth|wlan`, `ethernet` is selected: it has no digit. -/
theorem selects_alternation_ethernet :
    (literalOnly "eth".data = true ∧ literalOnly "wlan".data = true) ∧
      selects ("eth" ++ "|" ++ "wlan") "ethernet" = .ok true ∧
      ∃ v, selects ("eth" ++ "|" ++ "wlan") "ethernet" = .ok v ∧
        (v = true ↔ (∃ q ∈ [[], "ipvlan-".data], ∃ r, "ethernet".data = q ++ "eth".data ++ r) ∨
          ∃ u c r, c.isDigit ∧ "ethernet".data = u ++ "wlan".data ++ c :: r) :=
  ⟨⟨by decide, by decide⟩, rfl,
    selects_alternation "eth" "wlan" (by decide) (by decide) "ethernet"⟩

/-- **A single parenthesis in `PCAP_IFACE` makes `createTasks` panic.** For `a` and `b` read
as literals, `PCAP_IFACE = a(b` opens a group that nothing closes, and `a)b` closes one that is
not open: `regexp.MustCompile` panics on the pattern (`missing closing )`, `unexpected )`), so
`createTasks` lists no interface, whatever the host. -/
theorem paren_panics {E W : Type} (f : Flags) (a b : String) (ha : literalOnly a.data = true)
    (hb : literalOnly b.data = true) (host : List (DeviceRun E W)) :
    createTasks f (a ++ "(" ++ b) host = .error (.invalid .missingParen) ∧
      createTasks f (a ++ ")" ++ b) host = .error (.invalid .unexpectedParen) := by
  have hlp : lex ('(' :: (b.data ++ "\\d+.*".data)) =
      (Token.lparen :: ·) <$> lex (b.data ++ "\\d+.*".data) := by
    cases hd : b.data with
    | nil => exact lex_lparen (by decide) _
    | cons d u =>
      have hd' : d ≠ '?' := by
        rintro rfl
        simp [hd, literalOnly, syntaxChar] at hb
      exact lex_lparen hd' _
  have hl : compile (ifaceRegexp (a ++ "(" ++ b)) = .error (.invalid .missingParen) := by
    simp only [compile, String.toList]
    exact (congrArg (· >>= parse) (lex_splitRegexp ha hb (by decide) (by decide) hlp)).trans
      (parse_lparenTokens _ _)
  have hr : compile (ifaceRegexp (a ++ ")" ++ b)) = .error (.invalid .unexpectedParen) := by
    simp only [compile, String.toList]
    exact (congrArg (· >>= parse) (lex_splitRegexp ha hb (c := ')') (t := .rparen) (by decide)
      (by decide) (by simp [lex]))).trans (parse_rparenTokens _ _)
  constructor
  · unfold createTasks
    rw [hl]
  · unfold createTasks
    rw [hr]

/-- `PCAP_IFACE = eth(` and `eth)` on a host with `eth0`. -/
theorem paren_panics_eth :
    (literalOnly "eth".data = true ∧ literalOnly "".data = true) ∧
      createTasks jsondumpOnly ("eth" ++ "(" ++ "") [eth0] = .error (.invalid .missingParen) ∧
      createTasks jsondumpOnly ("eth" ++ ")" ++ "") [eth0] = .error (.invalid .unexpectedParen) :=
  ⟨⟨by decide, by decide⟩, paren_panics jsondumpOnly "eth" "" (by decide) (by decide) [eth0]⟩

end Tcpdumpw
