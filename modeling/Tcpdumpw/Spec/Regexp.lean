import Mathlib.Data.List.Basic

/-!
# The fragment of Go's `regexp` that `createTasks` uses

`createTasks` builds its interface matcher with
`regexp.MustCompile(fmt.Sprintf("^(?:ipvlan-)?%s\\d+.*", ifacePattern))` and hands it to
`pcap.FindDevicesByRegex`, which keeps the interface names it `MatchString`s.

The model covers the syntax of `regexp/syntax` with the `Perl` flags that such a string
can hold: literals, `.`, `^`, `$`, `\d`, escaped punctuation, capturing and `(?:` groups,
`|`, and `*`, `+`, `?` with their lazy forms. A `{` is a literal unless it starts a repetition
count (`parser.parseRepeat`), and `]` and `}` are literals. The model reports the parse errors
Go reports for these (`MustCompile` then panics with them), and `unsupported` for syntax
outside the fragment (classes, counted repetition, flags, other escapes), which Go compiles
and about which the model says nothing. A Lean `String` is valid UTF-8, so Go's
`ErrInvalidUTF8` has no counterpart here.

Matching (`Regexp.suffixes`) gives the suffixes a tree can leave of a word, so that a
tree matches inside a name (`Regexp.matchString`) when it leaves a suffix from some
starting position. `^` holds only at position `0` and `$` only at the end (`OneLine`).
-/

namespace Tcpdumpw

/-- The syntax trees of `regexp/syntax` the fragment produces. Capturing groups are kept
as their contents: a capture does not change what matches. -/
inductive Regexp where
  | emptyMatch
  | literal (c : Char)
  | anyCharNotNL
  | digit
  | beginText
  | endText
  | concat (a b : Regexp)
  | alternate (a b : Regexp)
  | star (a : Regexp)
  | plus (a : Regexp)
  | quest (a : Regexp)
  deriving DecidableEq, Repr

/-- The `ErrorCode`s of `regexp/syntax` the fragment can raise. -/
inductive ErrorCode where
  | missingParen
  | unexpectedParen
  | missingRepeatArgument
  | invalidRepeatOp
  | trailingBackslash
  deriving DecidableEq, Repr

/-- Why a pattern gives no tree: a parse error of Go, or syntax outside the fragment. -/
inductive ParseError where
  | invalid (code : ErrorCode)
  | unsupported
  deriving DecidableEq, Repr

/-- The characters the parser's main loop reads as syntax wherever they stand. Outside a
class `]` and `}` are literals, and `{` is syntax only where it starts a repetition count
(`Regexp.repeatSpec`). -/
def syntaxChar (c : Char) : Bool :=
  c ∈ ['\\', '.', '+', '*', '?', '(', ')', '|', '[', '^', '$']

/-- What a backslash escapes to itself: an ASCII character that is not a letter or digit. -/
def isPunct (c : Char) : Bool := c.toNat < 128 && !c.isAlphanum

namespace Regexp

/-! ## Lexing -/

/-- `parser.parseInt`, as syntax: a run of decimal digits, but not a `0` followed by another
digit; what follows the run. Go also computes the number, which only the range check of the
count reads. -/
def parseInt : List Char → Option (List Char)
  | [] => none
  | c :: t =>
    if !c.isDigit || (c == '0' && t.head?.any Char.isDigit) then none
    else some (t.dropWhile Char.isDigit)

/-- What `parser.parseRepeat` checks after a number: it was read, and `}` follows. -/
def closes (r : Option (List Char)) : Bool := r.bind List.head? == some '\x7d'

/-- `parser.parseRepeat` at a `{` followed by `s`: whether `s` starts with `n}`, `n,}` or
`n,m}`. Where it does not, the `{` is a literal. -/
def repeatSpec (s : List Char) : Bool :=
  match parseInt s with
  | some (c :: t) => if c = ',' then closes (some t) || closes (parseInt t) else c == '\x7d'
  | _ => false

/-- The tokens of the parser's main loop. A lazy repetition (`*?`, `+?`, `??`) is one token:
laziness does not change what matches. -/
inductive Token where
  | lit (c : Char)
  | dot
  | caret
  | dollar
  | digit
  | lparen
  | rparen
  | bar
  | star
  | plus
  | quest
  deriving DecidableEq, Repr

/-- The characters of a pattern as the parser's main loop reads them. -/
def lex : List Char → Except ParseError (List Token)
  | [] => .ok []
  | '(' :: '?' :: ':' :: t => (Token.lparen :: ·) <$> lex t
  | '(' :: '?' :: _ => .error .unsupported
  | '(' :: t => (Token.lparen :: ·) <$> lex t
  | ')' :: t => (Token.rparen :: ·) <$> lex t
  | '|' :: t => (Token.bar :: ·) <$> lex t
  | '*' :: '?' :: t => (Token.star :: ·) <$> lex t
  | '*' :: t => (Token.star :: ·) <$> lex t
  | '+' :: '?' :: t => (Token.plus :: ·) <$> lex t
  | '+' :: t => (Token.plus :: ·) <$> lex t
  | '?' :: '?' :: t => (Token.quest :: ·) <$> lex t
  | '?' :: t => (Token.quest :: ·) <$> lex t
  | '^' :: t => (Token.caret :: ·) <$> lex t
  | '$' :: t => (Token.dollar :: ·) <$> lex t
  | '.' :: t => (Token.dot :: ·) <$> lex t
  | '[' :: _ => .error .unsupported
  | '\x7b' :: t => if repeatSpec t then .error .unsupported else (Token.lit '\x7b' :: ·) <$> lex t
  | ['\\'] => .error (.invalid .trailingBackslash)
  | '\\' :: 'd' :: t => (Token.digit :: ·) <$> lex t
  | '\\' :: c :: t => if isPunct c then (Token.lit c :: ·) <$> lex t else .error .unsupported
  | c :: t => (Token.lit c :: ·) <$> lex t

/-! ## Parsing -/

/-- A concatenation, `emptyMatch` when empty. -/
def concatOf : List Regexp → Regexp
  | [] => emptyMatch
  | [a] => a
  | a :: as => concat a (concatOf as)

/-- An alternation of at least one branch. -/
def alternateOf : List Regexp → Regexp
  | [] => emptyMatch
  | [a] => a
  | a :: as => alternate a (alternateOf as)

/-- An open group on the parser's stack: its finished branches and the items of the
branch being read, last item first. -/
structure Frame where
  alts : List Regexp
  items : List Regexp
  deriving DecidableEq, Repr

/-- The tree of a group once it is closed. -/
def Frame.close (f : Frame) : Regexp := alternateOf (f.alts ++ [concatOf f.items.reverse])

/-- The parser's stack: the innermost group, the groups around it, and whether the last
token was a repetition (`lastRepeat`). -/
structure PState where
  cur : Frame
  outer : List Frame
  lastRepeat : Bool
  deriving DecidableEq, Repr

/-- The stack before the first token. -/
def PState.init : PState := ⟨⟨[], []⟩, [], false⟩

/-- Push an operand. -/
def PState.push (st : PState) (a : Regexp) : PState :=
  ⟨{ st.cur with items := a :: st.cur.items }, st.outer, false⟩

/-- `parser.repeat`: a repetition applies to the last operand; it is an error right after
another repetition or with no operand before it. -/
def PState.repeat (st : PState) (op : Regexp → Regexp) : Except ParseError PState :=
  if st.lastRepeat then .error (.invalid .invalidRepeatOp) else
  match st.cur.items with
  | [] => .error (.invalid .missingRepeatArgument)
  | a :: as => .ok ⟨{ st.cur with items := op a :: as }, st.outer, true⟩

/-- One token of the main loop. -/
def PState.step (st : PState) : Token → Except ParseError PState
  | .lit c => .ok (st.push (.literal c))
  | .dot => .ok (st.push .anyCharNotNL)
  | .caret => .ok (st.push .beginText)
  | .dollar => .ok (st.push .endText)
  | .digit => .ok (st.push Regexp.digit)
  | .lparen => .ok ⟨⟨[], []⟩, st.cur :: st.outer, false⟩
  | .rparen =>
    match st.outer with
    | [] => .error (.invalid .unexpectedParen)
    | f :: fs => .ok ⟨{ f with items := st.cur.close :: f.items }, fs, false⟩
  | .bar => .ok ⟨⟨st.cur.alts ++ [concatOf st.cur.items.reverse], []⟩, st.outer, false⟩
  | .star => st.repeat Regexp.star
  | .plus => st.repeat Regexp.plus
  | .quest => st.repeat Regexp.quest

/-- `syntax.Parse` over the tokens: the main loop, then the check that every group was
closed. -/
def parse (ts : List Token) : Except ParseError Regexp := do
  let st ← ts.foldlM PState.step PState.init
  if st.outer = [] then pure st.cur.close else throw (.invalid .missingParen)

/-- `regexp.Compile`; `regexp.MustCompile` panics where this is an error. -/
def compile (s : String) : Except ParseError Regexp := lex s.toList >>= parse

/-! ## Matching -/

/-- The suffixes a star leaves: zero or more iterations, each consuming at least one
character (an iteration that consumes nothing adds no match). `fuel` bounds the
iterations; the length of the word is enough. -/
def starSuffixes (f : Bool → List Char → List (List Char)) : ℕ → Bool → List Char → List (List Char)
  | 0, _, w => [w]
  | n + 1, st, w =>
    w :: ((f st w).filter fun w' => w'.length < w.length).flatMap fun w' => starSuffixes f n false w'

/-- The suffixes of `w` that `r` can leave, matching a prefix of `w`; `st` says whether `w`
starts the name. -/
def suffixes : Regexp → Bool → List Char → List (List Char)
  | emptyMatch, _, w => [w]
  | literal c, _, w => match w with
    | d :: w' => if d = c then [w'] else []
    | [] => []
  | anyCharNotNL, _, w => match w with
    | d :: w' => if d = '\n' then [] else [w']
    | [] => []
  | digit, _, w => match w with
    | d :: w' => if d.isDigit then [w'] else []
    | [] => []
  | beginText, st, w => if st then [w] else []
  | endText, _, w => if w = [] then [w] else []
  | concat a b, st, w =>
    (suffixes a st w).flatMap fun w' => suffixes b (st && w'.length == w.length) w'
  | alternate a b, st, w => suffixes a st w ++ suffixes b st w
  | star a, st, w => starSuffixes (suffixes a) w.length st w
  | plus a, st, w =>
    (suffixes a st w).flatMap fun w' =>
      starSuffixes (suffixes a) w'.length (st && w'.length == w.length) w'
  | quest a, st, w => w :: suffixes a st w

/-- `(*Regexp).MatchString`: a match starts at some position of the name. -/
def matchString (r : Regexp) (s : List Char) : Bool :=
  (List.range (s.length + 1)).any fun i => !(suffixes r (i == 0) (s.drop i)).isEmpty

end Regexp

/-! ## The interface matcher -/

/-- No character of `p` is a `syntaxChar`, and no `{` of `p` starts a repetition count `{n}`,
`{n,}` or `{n,m}` inside `p`. -/
def literalOnly : List Char → Bool
  | [] => true
  | c :: t => !syntaxChar c && !(c == '\x7b' && Regexp.repeatSpec t) && literalOnly t

/-- The pattern `createTasks` compiles: `fmt.Sprintf("^(?:ipvlan-)?%s\\d+.*", ifacePattern)`. -/
def ifaceRegexp (ifacePattern : String) : String := "^(?:ipvlan-)?" ++ ifacePattern ++ "\\d+.*"

/-- Whether the matcher built from `ifacePattern` selects the interface `name`. The error is
`.invalid code` where `regexp.MustCompile` panics with `code`, and `.unsupported` where the
pattern leaves the fragment. -/
def selects (ifacePattern name : String) : Except ParseError Bool :=
  match Regexp.compile (ifaceRegexp ifacePattern) with
  | .ok r => .ok (r.matchString name.toList)
  | .error e => .error e

end Tcpdumpw
