import Tcpdumpw.Spec.Regexp

/-!
# What the interface matcher selects

* `compile_ifaceRegexp`: for a pattern `p` with no `syntaxChar` and no repetition count
  (`literalOnly`), the string `createTasks` compiles parses to `^`, an optional `ipvlan-`, the
  characters of `p`, `\d+` and `.*`. A `]`, a `}` and a `{` that starts no count are literals,
  as in Go.
* `matchString_ifaceTree`: that tree matches a name exactly when the name is an optional
  `ipvlan-`, then `p`, then a digit, then anything.
* `selects_iff_ifaceForm`: so for such patterns the matcher compiles and selects exactly
  the names of the documented form.
* `selects_not_literal`: other patterns are read as syntax: `.` selects `x0`, and `(`
  makes `regexp.MustCompile` panic.
-/

namespace Tcpdumpw

open Regexp

/-- The names the spec says the matcher selects: an optional `ipvlan-`, the pattern taken
literally, one or more decimal digits, then anything. -/
def IfaceForm (p n : String) : Prop :=
  ∃ q ∈ ["", "ipvlan-"], ∃ d r : String, d ≠ "" ∧ (∀ c ∈ d.data, c.isDigit) ∧ n = q ++ p ++ d ++ r

namespace Regexp

/-! ## Lexing and parsing the interface pattern -/

/-- A character that ends a run of digits and is neither the `,` nor the `}` of a count. -/
def countStop (c : Char) : Bool := !c.isDigit && c != ',' && c != '\x7d'

theorem lex_lit {c : Char} (h : syntaxChar c = false) (hb : c ≠ '\x7b') (t : List Char) :
    lex (c :: t) = (Token.lit c :: ·) <$> lex t := by
  simp only [syntaxChar, List.mem_cons, List.mem_singleton, decide_eq_false_iff_not, not_or] at h
  obtain ⟨h1, h2, h3, h4, h5, h6, h7, h8, h9, h10, h11, -⟩ := h
  rw [lex] <;> simp_all

/-- A `{` that starts no count is a literal. -/
theorem lex_brace {t : List Char} (h : repeatSpec t = false) :
    lex ('\x7b' :: t) = (Token.lit '\x7b' :: ·) <$> lex t := by
  simp [lex, h]

/-- A suffix that does not start with a digit does not extend a run of digits. -/
theorem parseInt_append {t s : List Char} (hs : s.head?.all (!Char.isDigit ·) = true) :
    parseInt (t ++ s) = (parseInt t).map (· ++ s) := by
  have hd : s.dropWhile Char.isDigit = s := by
    cases s with
    | nil => rfl
    | cons c s => simp only [List.head?_cons, Option.all_some, Bool.not_eq_true'] at hs; simp [hs]
  cases t with
  | nil =>
    cases s with
    | nil => rfl
    | cons c s => simp only [List.head?_cons, Option.all_some, Bool.not_eq_true'] at hs; simp [parseInt, hs]
  | cons c t =>
    have hh : (t ++ s).head?.any Char.isDigit = t.head?.any Char.isDigit := by
      cases t with
      | nil => cases s <;> simp_all
      | cons => rfl
    simp only [parseInt, List.cons_append, hh]
    split
    · rfl
    · rw [List.dropWhile_append, hd]
      split <;> simp_all [List.isEmpty_iff]

theorem closes_map_append {r : Option (List Char)} {s : List Char}
    (hs : s.head?.all (· != '\x7d') = true) : closes (r.map (· ++ s)) = closes r := by
  rcases r with _ | _ | ⟨c, r⟩
  · rfl
  · cases s <;> simp_all [closes]
  · simp [closes]

/-- **A count is read within its own text.** What follows it neither makes nor unmakes one,
when it starts with a `countStop`. -/
theorem repeatSpec_append {t s : List Char} (hs : s.head?.all countStop = true) :
    repeatSpec (t ++ s) = repeatSpec t := by
  have hdig : s.head?.all (!Char.isDigit ·) = true := by
    cases s <;> simp_all [countStop]
  have hbr : s.head?.all (· != '\x7d') = true := by
    cases s <;> simp_all [countStop]
  unfold repeatSpec
  rw [parseInt_append hdig]
  rcases parseInt t with _ | _ | ⟨c, r⟩
  · rfl
  · cases s with
    | nil => rfl
    | cons c s => simp_all [countStop]
  · simp only [Option.map_some', List.cons_append]
    split
    · rw [show some (r ++ s) = (some r).map (· ++ s) from rfl, closes_map_append hbr,
        parseInt_append hdig, closes_map_append hbr]
    · rfl

/-- A pattern that reads as literals lexes to its characters, when what follows it starts
with a `countStop`. -/
theorem lex_append_lits {p s : List Char} (hp : literalOnly p = true)
    (hs : s.head?.all countStop = true) :
    lex (p ++ s) = (p.map Token.lit ++ ·) <$> lex s := by
  induction p with
  | nil => simp
  | cons c p ih =>
    simp only [literalOnly, Bool.and_eq_true, Bool.not_eq_true'] at hp
    obtain ⟨⟨hc, hb⟩, hp⟩ := hp
    have hl : lex (c :: (p ++ s)) = (Token.lit c :: ·) <$> lex (p ++ s) := by
      by_cases h : c = '\x7b'
      · subst h
        exact lex_brace (by rw [repeatSpec_append hs]; simpa using hb)
      · exact lex_lit hc h _
    rw [List.cons_append, hl, ih hp]
    cases lex s <;> rfl

/-- A `?` before a literal pattern is greedy: no `?` follows it. -/
theorem lex_quest_lits {p s : List Char} (hp : literalOnly p = true)
    (hs : s.head?.all (· != '?') = true) :
    lex ('?' :: (p ++ s)) = (Token.quest :: ·) <$> lex (p ++ s) := by
  cases p with
  | nil =>
    cases s with
    | nil => rfl
    | cons c s => simp_all [lex]
  | cons c p =>
    have hc : c ≠ '?' := by
      rintro rfl
      simp [literalOnly, syntaxChar] at hp
    simp [lex, hc]

/-- The tokens of the interface pattern. -/
def ifaceTokens (p : List Char) : List Token :=
  [.caret, .lparen, .lit 'i', .lit 'p', .lit 'v', .lit 'l', .lit 'a', .lit 'n', .lit '-', .rparen,
    .quest] ++ p.map Token.lit ++ [.digit, .plus, .dot, .star]

theorem lex_ifaceRegexp {p : String} (hp : literalOnly p.data = true) :
    lex (ifaceRegexp p).data = .ok (ifaceTokens p.data) := by
  have hsuf : lex "\\d+.*".data = .ok [.digit, .plus, .dot, .star] := rfl
  have hmid : lex (p.data ++ "\\d+.*".data) =
      .ok (p.data.map Token.lit ++ [.digit, .plus, .dot, .star]) := by
    rw [lex_append_lits hp (by decide), hsuf]; rfl
  simp only [ifaceRegexp, String.data_append, List.append_assoc]
  rw [show "^(?:ipvlan-)?".data ++ (p.data ++ "\\d+.*".data) =
    '^' :: '(' :: '?' :: ':' :: 'i' :: 'p' :: 'v' :: 'l' :: 'a' :: 'n' :: '-' :: ')' ::
      '?' :: (p.data ++ "\\d+.*".data) from rfl]
  simp only [lex, lex_quest_lits (s := "\\d+.*".data) hp (by decide), hmid]
  rfl

theorem ok_bind {ε α β : Type} (a : α) (f : α → Except ε β) : (Except.ok a >>= f) = f a := rfl

theorem foldl_push_push (p : List Char) (st : PState) (a : Regexp) :
    (p.foldl (fun st c => st.push (.literal c)) st).push a =
      ⟨{ st.cur with items := a :: (p.map literal).reverse ++ st.cur.items }, st.outer, false⟩ := by
  induction p generalizing st with
  | nil => rfl
  | cons c p ih => rw [List.foldl_cons, ih]; simp [PState.push]

theorem foldlM_lits (p : List Char) (st : PState) :
    (p.map Token.lit).foldlM PState.step st = .ok (p.foldl (fun st c => st.push (.literal c)) st) := by
  induction p generalizing st with
  | nil => rfl
  | cons c p ih => exact ih _

/-- The optional `ipvlan-` prefix. -/
def ipvlan : Regexp := quest (concatOf ("ipvlan-".data.map literal))

/-- What follows `^` in the interface pattern's tree. -/
def ifaceTail (p : List Char) : Regexp :=
  concatOf (ipvlan :: (p.map literal ++ [plus digit, star anyCharNotNL]))

/-- The tree of the interface pattern. -/
def ifaceTree (p : List Char) : Regexp := concat beginText (ifaceTail p)

theorem parse_ifaceTokens (p : List Char) : parse (ifaceTokens p) = .ok (ifaceTree p) := by
  have hpre : ([Token.caret, .lparen, .lit 'i', .lit 'p', .lit 'v', .lit 'l', .lit 'a', .lit 'n',
      .lit '-', .rparen, .quest].foldlM PState.step PState.init) =
      .ok ⟨⟨[], [ipvlan, beginText]⟩, [], true⟩ := rfl
  simp only [parse, ifaceTokens, List.foldlM_append, hpre, ok_bind, foldlM_lits, List.foldlM_cons,
    List.foldlM_nil, PState.step, foldl_push_push, PState.repeat]
  simp [PState.push, ok_bind, Frame.close, ifaceTree, ifaceTail, alternateOf]
  rfl

/-- **The interface pattern compiles**, for a pattern with no metacharacter. -/
theorem compile_ifaceRegexp {p : String} (hp : literalOnly p.data = true) :
    compile (ifaceRegexp p) = .ok (ifaceTree p.data) := by
  simp only [compile, String.toList, lex_ifaceRegexp hp, ok_bind, parse_ifaceTokens]

/-! ## Matching -/

/-- No `^` in the tree: what it matches does not depend on where the word starts. -/
def startFree : Regexp → Bool
  | beginText => false
  | concat a b | alternate a b => a.startFree && b.startFree
  | star a | plus a | quest a => a.startFree
  | _ => true

theorem starSuffixes_start {f : Bool → List Char → List (List Char)}
    (hf : ∀ w, f true w = f false w) : ∀ n st w, starSuffixes f n st w = starSuffixes f n false w
  | 0, _, _ => rfl
  | n + 1, st, w => by cases st <;> simp [starSuffixes, hf]

theorem suffixes_start {r : Regexp} (h : r.startFree = true) :
    ∀ st w, suffixes r st w = suffixes r false w := by
  induction r with
  | emptyMatch | literal _ | anyCharNotNL | digit | endText => intros; rfl
  | beginText => simp [startFree] at h
  | concat a b iha ihb =>
    simp only [startFree, Bool.and_eq_true] at h
    intro st w
    simp only [suffixes, iha h.1 st, Bool.false_and]
    congr 1; funext w'; exact ihb h.2 _ _
  | alternate a b iha ihb =>
    simp only [startFree, Bool.and_eq_true] at h
    intro st w
    simp only [suffixes, iha h.1 st, ihb h.2 st]
  | star a ih => intro st w; exact starSuffixes_start (fun w => ih h true w) _ _ _
  | plus a ih =>
    intro st w
    simp only [suffixes, ih h st, Bool.false_and]
    congr 1; funext w'; exact starSuffixes_start (fun w => ih h true w) _ _ _
  | quest a ih => intro st w; simp only [suffixes, ih h st]

theorem self_mem_starSuffixes (f : Bool → List Char → List (List Char)) (n : ℕ) (st : Bool)
    (w : List Char) : w ∈ starSuffixes f n st w := by
  cases n <;> simp [starSuffixes]

@[simp] theorem mem_suffixes_literal {c : Char} {st : Bool} {w w' : List Char} :
    w' ∈ suffixes (literal c) st w ↔ w = c :: w' := by
  cases w with
  | nil => simp [suffixes]
  | cons d w =>
    by_cases h : d = c
    · subst h; simp [suffixes, eq_comm]
    · simp [suffixes, h]

theorem mem_suffixes_digit {st : Bool} {w w' : List Char} :
    w' ∈ suffixes digit st w ↔ ∃ c, c.isDigit ∧ w = c :: w' := by
  cases w with
  | nil => simp [suffixes]
  | cons d w =>
    simp only [suffixes, List.cons.injEq]
    split
    · rename_i h; simp only [List.mem_singleton]; exact ⟨fun e => ⟨d, h, rfl, e.symm⟩, by aesop⟩
    · rename_i h; simp only [List.not_mem_nil, false_iff]; rintro ⟨c, hc, rfl, -⟩; exact h hc

@[simp] theorem mem_suffixes_emptyMatch {st : Bool} {w w' : List Char} :
    w' ∈ suffixes emptyMatch st w ↔ w' = w := List.mem_singleton

theorem mem_suffixes_quest {a : Regexp} {st : Bool} {w w' : List Char} :
    w' ∈ suffixes (quest a) st w ↔ w' = w ∨ w' ∈ suffixes a st w := List.mem_cons

theorem mem_suffixes_concatOf_cons {a : Regexp} {as : List Regexp} {st : Bool} {w w' : List Char} :
    w' ∈ suffixes (concatOf (a :: as)) st w ↔
      ∃ w₁ ∈ suffixes a st w, w' ∈ suffixes (concatOf as) (st && w₁.length == w.length) w₁ := by
  cases as with
  | nil => simp [concatOf, suffixes]
  | cons b bs => simp [concatOf, suffixes]

/-- Literals consume their characters. -/
theorem mem_suffixes_lits (xs : List Char) (rest : List Regexp) {w w' : List Char} :
    w' ∈ suffixes (concatOf (xs.map literal ++ rest)) false w ↔
      ∃ w₁, w = xs ++ w₁ ∧ w' ∈ suffixes (concatOf rest) false w₁ := by
  induction xs generalizing w with
  | nil => simp
  | cons x xs ih =>
    simp only [List.map_cons, List.cons_append, mem_suffixes_concatOf_cons, mem_suffixes_literal,
      Bool.false_and, ih]
    constructor
    · rintro ⟨w₁, rfl, w₂, rfl, h⟩; exact ⟨w₂, rfl, h⟩
    · rintro ⟨w₂, rfl, h⟩; exact ⟨_, rfl, w₂, rfl, h⟩

theorem mem_suffixes_ipvlan {w w' : List Char} :
    w' ∈ suffixes ipvlan false w ↔ w' = w ∨ w = "ipvlan-".data ++ w' := by
  have h := @mem_suffixes_lits "ipvlan-".data [] w w'
  rw [List.append_nil] at h
  rw [ipvlan, mem_suffixes_quest, h]
  simp [concatOf]

/-- A concatenation leaves what its second part leaves after its first. -/
theorem mem_suffixes_concat {a b : Regexp} {st : Bool} {w w' : List Char} :
    w' ∈ suffixes (concat a b) st w ↔
      ∃ w₁ ∈ suffixes a st w, w' ∈ suffixes b (st && w₁.length == w.length) w₁ :=
  List.mem_flatMap

theorem mem_suffixes_plus {a : Regexp} {st : Bool} {w w' : List Char} :
    w' ∈ suffixes (plus a) st w ↔ ∃ w₁ ∈ suffixes a st w,
      w' ∈ starSuffixes (suffixes a) w₁.length (st && w₁.length == w.length) w₁ :=
  List.mem_flatMap

theorem self_mem_suffixes_star {a : Regexp} {st : Bool} {w : List Char} :
    w ∈ suffixes (star a) st w :=
  self_mem_starSuffixes _ _ _ _

/-- `\d+.*` matches at `w` when `w` starts with a digit. -/
theorem suffixes_digits_isEmpty {w : List Char} :
    (suffixes (concatOf [plus digit, star anyCharNotNL]) false w).isEmpty = false ↔
      ∃ c r, c.isDigit ∧ w = c :: r := by
  rw [List.isEmpty_eq_false_iff_exists_mem]
  simp only [concatOf, mem_suffixes_concat, mem_suffixes_plus, mem_suffixes_digit]
  constructor
  · rintro ⟨-, -, ⟨w₂, ⟨c, hc, rfl⟩, -⟩, -⟩
    exact ⟨c, w₂, hc, rfl⟩
  · rintro ⟨c, r, hc, rfl⟩
    exact ⟨r, r, ⟨r, ⟨c, hc, rfl⟩, self_mem_starSuffixes _ _ _ _⟩, self_mem_suffixes_star⟩

theorem startFree_concatOf : ∀ {as : List Regexp}, (∀ a ∈ as, a.startFree) → (concatOf as).startFree
  | [], _ => rfl
  | [a], h => h a (by simp)
  | a :: b :: bs, h => by
    simp only [concatOf, startFree, Bool.and_eq_true]
    exact ⟨h a (by simp), startFree_concatOf fun x hx => h x (List.mem_cons_of_mem _ hx)⟩

theorem startFree_ifaceTail (p : List Char) : (ifaceTail p).startFree := by
  apply startFree_concatOf
  intro a ha
  simp only [List.mem_cons, List.mem_append, List.mem_map, List.mem_singleton, List.not_mem_nil,
    or_false] at ha
  rcases ha with rfl | ⟨c, -, rfl⟩ | rfl | rfl <;> rfl

/-- A match of `^t`, with no other `^` in `t`, starts at the first character, where `t`
matches. -/
theorem matchString_beginText (t : Regexp) (ht : t.startFree = true) (n : List Char) :
    (concat beginText t).matchString n = !(suffixes t false n).isEmpty := by
  have hT := suffixes_start ht true
  have hs : ∀ i, suffixes (concat beginText t) (i == 0) (n.drop i) =
      if i = 0 then suffixes t false n else [] := by
    intro i
    by_cases hi : i = 0
    · subst hi; simp [suffixes, hT]
    · simp [suffixes, hi]
  rw [Bool.eq_iff_iff, matchString, List.any_eq_true]
  simp only [hs, List.mem_range, Bool.not_eq_true']
  constructor
  · rintro ⟨i, -, hi⟩
    by_cases h0 : i = 0 <;> simp_all
  · intro h
    exact ⟨0, by omega, by simpa using h⟩

/-- A match of the interface tree starts at the first character, and what follows `^`
matches there. -/
theorem matchString_ifaceTree (p n : List Char) :
    (ifaceTree p).matchString n = !(suffixes (ifaceTail p) false n).isEmpty :=
  matchString_beginText _ (startFree_ifaceTail p) n

/-- What follows `^` matches at `n` exactly when `n` is an optional `ipvlan-`, then `p`,
then a digit, then anything. -/
theorem ifaceTail_isEmpty (p n : List Char) :
    (suffixes (ifaceTail p) false n).isEmpty = false ↔
      ∃ q ∈ [[], "ipvlan-".data], ∃ c r, c.isDigit ∧ n = q ++ p ++ c :: r := by
  have hd : ∀ w, (∃ w', w' ∈ suffixes (concatOf [plus digit, star anyCharNotNL]) false w) ↔
      ∃ c r, c.isDigit ∧ w = c :: r := fun w => by
    rw [← List.isEmpty_eq_false_iff_exists_mem, suffixes_digits_isEmpty]
  rw [List.isEmpty_eq_false_iff_exists_mem]
  simp only [ifaceTail, mem_suffixes_concatOf_cons, Bool.false_and]
  simp only [mem_suffixes_lits, mem_suffixes_ipvlan]
  constructor
  · rintro ⟨w', w₁, hq, w₂, rfl, hw'⟩
    obtain ⟨c, r, hc, rfl⟩ := (hd _).1 ⟨w', hw'⟩
    rcases hq with rfl | rfl
    · exact ⟨[], by simp, c, r, hc, by simp⟩
    · exact ⟨"ipvlan-".data, by simp, c, r, hc, by simp⟩
  · rintro ⟨q, hq, c, r, hc, rfl⟩
    obtain ⟨w', hw'⟩ := (hd (c :: r)).2 ⟨c, r, hc, rfl⟩
    simp only [List.mem_cons, List.mem_singleton, List.not_mem_nil, or_false] at hq
    rcases hq with rfl | rfl
    · exact ⟨w', _, Or.inl rfl, c :: r, by simp, hw'⟩
    · exact ⟨w', p ++ c :: r, Or.inr (by simp), c :: r, rfl, hw'⟩

end Regexp

theorem ifaceForm_iff (p n : String) :
    IfaceForm p n ↔ ∃ q ∈ [[], "ipvlan-".data], ∃ c r, c.isDigit ∧ n.data = q ++ p.data ++ c :: r := by
  constructor
  · rintro ⟨q, hq, d, r, hd, hdig, rfl⟩
    obtain ⟨c, d', hcd⟩ : ∃ c d', d.data = c :: d' := by
      cases h : d.data with
      | nil => exact absurd (String.ext h) hd
      | cons c d' => exact ⟨c, d', rfl⟩
    refine ⟨q.data, ?_, c, d' ++ r.data, hdig c (by simp [hcd]), by simp [hcd]⟩
    simp only [List.mem_cons, List.mem_singleton, List.not_mem_nil, or_false] at hq ⊢
    rcases hq with rfl | rfl <;> simp
  · rintro ⟨q, hq, c, r, hc, hn⟩
    refine ⟨⟨q⟩, ?_, ⟨[c]⟩, ⟨r⟩, ?_, by simpa using hc, String.ext (by simpa using hn)⟩
    · simp only [List.mem_cons, List.mem_singleton, List.not_mem_nil, or_false] at hq ⊢
      rcases hq with rfl | rfl
      · exact Or.inl rfl
      · exact Or.inr rfl
    · intro h
      simpa using congrArg String.data h

/-- The tree of a pattern with no metacharacter selects the documented names. -/
theorem matchString_ifaceTree_iff (p n : String) :
    (ifaceTree p.data).matchString n.data = true ↔ IfaceForm p n := by
  rw [matchString_ifaceTree, ifaceForm_iff, ← ifaceTail_isEmpty]
  simp

/-- **The interface matcher, for a pattern read as literals.** For every pattern with no
`syntaxChar` and no repetition count, the pattern compiles, and the matcher selects a name
exactly when it is an optional `ipvlan-`, the pattern, one or more digits, then anything. -/
theorem selects_iff_ifaceForm (p : String) (hp : literalOnly p.data = true) (n : String) :
    ∃ b, selects p n = .ok b ∧ (b = true ↔ IfaceForm p n) := by
  have hs : selects p n = .ok ((ifaceTree p.data).matchString n.data) := by
    unfold selects
    rw [compile_ifaceRegexp hp]
    rfl
  exact ⟨_, hs, matchString_ifaceTree_iff p n⟩

theorem selects_iff_ifaceForm_eth :
    literalOnly "eth]".data = true ∧
      ∃ b, selects "eth]" "eth]0" = .ok b ∧ (b = true ↔ IfaceForm "eth]" "eth]0") :=
  ⟨by decide, selects_iff_ifaceForm "eth]" (by decide) "eth]0"⟩

/-- **Other patterns are read as syntax.** With `PCAP_IFACE = "."` the matcher selects
`x0`, which is not `.` followed by digits; with `PCAP_IFACE = "("` the pattern does not
compile and `regexp.MustCompile` panics with `missing closing )`. -/
theorem selects_not_literal :
    ¬ (∃ b, selects "." "x0" = .ok b ∧ (b = true ↔ IfaceForm "." "x0")) ∧
      selects "(" "eth0" = .error (.invalid .missingParen) := by
  refine ⟨?_, rfl⟩
  rintro ⟨b, hb, hiff⟩
  have h1 : selects "." "x0" = .ok true := rfl
  rw [h1, Except.ok.injEq] at hb
  subst hb
  obtain ⟨q, hq, c, r, -, hn⟩ := (ifaceForm_iff "." "x0").1 (hiff.1 rfl)
  simp only [List.mem_cons, List.mem_singleton, List.not_mem_nil, or_false] at hq
  rcases hq with rfl | rfl <;> simp at hn

end Tcpdumpw
