/-
The tokens of a JSON text.  A text is scanned character by character; what is no token leaves a
gap, and the tokens before the gap are still known.
-/
import WithdrawalPool.Hex
import WithdrawalPool.Json.Numeral

namespace WithdrawalPool

namespace Json

/-- A token.  A string has no text if an escape in it names half of a surrogate pair. -/
inductive Token where
  | openArray
  | closeArray
  | openObject
  | closeObject
  | comma
  | colon
  | null
  | bool (value : Bool)
  | number (numeral : Numeral)
  | string (text : Option String)
deriving DecidableEq, Repr

/-- A part of a string: a character, or a code unit that an escape gives by its number. -/
inductive Piece where
  | char (c : Char)
  | unit (code : Nat)
deriving DecidableEq, Repr

def isHighSurrogate (code : Nat) : Bool := 0xD800 ≤ code && code < 0xDC00

def isLowSurrogate (code : Nat) : Bool := 0xDC00 ≤ code && code < 0xE000

/-- The text that the parts of a string stand for, if every surrogate among them is one of a
pair. -/
def joinPieces : List Piece → Option (List Char)
  | [] => some []
  | .char c :: rest => (joinPieces rest).map (c :: ·)
  | .unit high :: .unit low :: rest =>
    if isHighSurrogate high && isLowSurrogate low then
      (joinPieces rest).map (Char.ofNat (0x10000 + (high - 0xD800) * 0x400 + (low - 0xDC00)) :: ·)
    else if isHighSurrogate high || isLowSurrogate high then none
    else (joinPieces (.unit low :: rest)).map (Char.ofNat high :: ·)
  | .unit code :: rest =>
    if isHighSurrogate code || isLowSurrogate code then none
    else (joinPieces rest).map (Char.ofNat code :: ·)

/-- The character that a short escape stands for. -/
def shortEscape? : Char → Option Char
  | '"' => some '"'
  | '\\' => some '\\'
  | '/' => some '/'
  | 'b' => some '\x08'
  | 'f' => some '\x0c'
  | 'n' => some '\n'
  | 'r' => some '\r'
  | 't' => some '\t'
  | _ => none

/-- How a character is written in a string: short escapes where there are any, numbers for the
other control characters, and every other character as it is. -/
def escape (c : Char) : List Char :=
  if c = '"' then ['\\', '"']
  else if c = '\\' then ['\\', '\\']
  else if c = '\x08' then ['\\', 'b']
  else if c = '\t' then ['\\', 't']
  else if c = '\n' then ['\\', 'n']
  else if c = '\x0c' then ['\\', 'f']
  else if c = '\r' then ['\\', 'r']
  else if c.toNat < 0x20 then
    ['\\', 'u', '0', '0', (c.toNat / 16).digitChar, (c.toNat % 16).digitChar]
  else [c]

def isBlank (c : Char) : Bool := c == ' ' || c == '\t' || c == '\n' || c == '\r'

/-- The characters that numerals are made of. -/
def isNumeralChar (c : Char) : Bool :=
  c.isDigit || c == '-' || c == '+' || c == '.' || c == 'e' || c == 'E'

def punctuation? : Char → Option Token
  | '[' => some .openArray
  | ']' => some .closeArray
  | '\x7b' => some .openObject
  | '\x7d' => some .closeObject
  | ',' => some .comma
  | ':' => some .colon
  | _ => none

def word? (letters : List Char) : Option Token :=
  if letters = ['n', 'u', 'l', 'l'] then some .null
  else if letters = ['t', 'r', 'u', 'e'] then some (.bool true)
  else if letters = ['f', 'a', 'l', 's', 'e'] then some (.bool false)
  else none

/-- What a scan is in the middle of, with what it has seen of it, the latest first. -/
inductive Scan where
  | between
  | word (letters : List Char)
  | numeral (chars : List Char)
  | string (pieces : List Piece)
  | escape (pieces : List Piece)
  | unit (pieces : List Piece) (digits : List Char)
deriving DecidableEq

namespace Scan

/-- Takes a character with which no token is under way. -/
def start (c : Char) : Scan × List (Option Token) :=
  if isBlank c then (.between, [])
  else if c = '"' then (.string [], [])
  else if c.isDigit || c == '-' then (.numeral [c], [])
  else if c.isAlpha then (.word [c], [])
  else (.between, [punctuation? c])

def endWord (letters : List Char) : Option Token := word? letters.reverse

def endNumeral (chars : List Char) : Option Token :=
  (Numeral.ofChars? chars.reverse).map .number

def endString (pieces : List Piece) : Token :=
  .string ((joinPieces pieces.reverse).map String.ofList)

/-- Takes a character, and gives the tokens that end before it or with it. -/
def step : Scan → Char → Scan × List (Option Token)
  | .between, c => start c
  | .word letters, c =>
    if c.isAlpha then (.word (c :: letters), [])
    else ((start c).1, endWord letters :: (start c).2)
  | .numeral chars, c =>
    if isNumeralChar c then (.numeral (c :: chars), [])
    else ((start c).1, endNumeral chars :: (start c).2)
  | .string pieces, c =>
    if c = '"' then (.between, [some (endString pieces)])
    else if c = '\\' then (.escape pieces, [])
    else if c.toNat < 0x20 then (.between, [none])
    else (.string (.char c :: pieces), [])
  | .escape pieces, c =>
    if c = 'u' then (.unit pieces [], [])
    else
      match shortEscape? c with
      | some d => (.string (.char d :: pieces), [])
      | none => (.between, [none])
  | .unit pieces digits, c =>
    if Hex.isDigit c then
      if digits.length = 3 then
        (.string (.unit ((c :: digits).foldr (fun d n => 16 * n + Hex.value d) 0) :: pieces), [])
      else (.unit pieces (c :: digits), [])
    else (.between, [none])

/-- The token that the end of the text cuts off or completes. -/
def finish : Scan → List (Option Token)
  | .between => []
  | .word letters => [endWord letters]
  | .numeral chars => [endNumeral chars]
  | .string _ | .escape _ | .unit .. => [none]

end Scan

/-- The tokens of a text that is scanned from a given state on, with gaps for what is none. -/
def scanFrom (state : Scan) : List Char → List (Option Token)
  | [] => state.finish
  | c :: rest => (state.step c).2 ++ scanFrom (state.step c).1 rest

/-- The tokens of a text, with gaps for what is none. -/
def scan (text : String) : List (Option Token) := scanFrom .between text.toList

namespace Token

def spell : Token → List Char
  | .openArray => ['[']
  | .closeArray => [']']
  | .openObject => ['\x7b']
  | .closeObject => ['\x7d']
  | .comma => [',']
  | .colon => [':']
  | .null => ['n', 'u', 'l', 'l']
  | .bool true => ['t', 'r', 'u', 'e']
  | .bool false => ['f', 'a', 'l', 's', 'e']
  | .number numeral => numeral.spell
  | .string (some text) => '"' :: text.toList.flatMap escape ++ ['"']
  | .string none => ['"', '\\', 'u', 'd', '8', '0', '0', '"']

end Token

end Json

end WithdrawalPool
