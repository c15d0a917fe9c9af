/-
What is understood of a JSON text that may break off.  Readers see the values in the order of the
text, up to the place where the text stops being JSON, so that they can tell which of two faults
comes first.
-/
import WithdrawalPool.Json.Token
import WithdrawalPool.SortedMap.Basic

namespace WithdrawalPool

namespace Json

/-- A value as far as it could be read.  Arrays and objects are `closed` if their end was reached;
the last part of one that is not may be broken off itself. -/
inductive Reading where
  | null
  | bool (value : Bool)
  | number (numeral : Numeral)
  | string (text : Option String)
  | array (items : List Reading) (closed : Bool)
  | object (members : List (Option String × Reading)) (closed : Bool)
  | brokenOff
deriving Inhabited

/-- The name of a member and its value.  A name that cannot be spelled out is `none`. -/
abbrev Member := Option String × Reading

/-- An array or an object that is being read, with its parts so far, the latest first. -/
inductive Frame where
  | array (items : List Reading)
  | object (members : List Member) (name : Option String)

/-- What has to come next. -/
inductive Expecting where
  | value
  | firstItem
  | firstName
  | name (members : List Member)
  | colon (members : List Member) (name : Option String)
  | endOf (value : Reading)

/-- Takes the first token of a value. -/
def beginValue (frames : List Frame) : Token → Option (Expecting × List Frame)
  | .null => some (.endOf .null, frames)
  | .bool value => some (.endOf (.bool value), frames)
  | .number numeral => some (.endOf (.number numeral), frames)
  | .string text => some (.endOf (.string text), frames)
  | .openArray => some (.firstItem, frames)
  | .openObject => some (.firstName, frames)
  | _ => none

/-- Takes the token after a value that is a part of the topmost frame. -/
def endValue (value : Reading) : List Frame → Token → Option (Expecting × List Frame)
  | .array items :: frames, .comma => some (.value, .array (value :: items) :: frames)
  | .array items :: frames, .closeArray =>
    some (.endOf (.array (value :: items).reverse true), frames)
  | .object members name :: frames, .comma => some (.name ((name, value) :: members), frames)
  | .object members name :: frames, .closeObject =>
    some (.endOf (.object ((name, value) :: members).reverse true), frames)
  | _, _ => none

/-- Takes a token where it may stand. -/
def advance (frames : List Frame) : Expecting → Token → Option (Expecting × List Frame)
  | .value, token => beginValue frames token
  | .firstItem, .closeArray => some (.endOf (.array [] true), frames)
  | .firstItem, token => beginValue (.array [] :: frames) token
  | .firstName, .closeObject => some (.endOf (.object [] true), frames)
  | .firstName, .string name => some (.colon [] name, frames)
  | .name members, .string name => some (.colon members name, frames)
  | .colon members name, .colon => some (.value, .object members name :: frames)
  | .endOf value, token => endValue value frames token
  | _, _ => none

/-- The value that is being read, if the text stops being JSON. -/
def Expecting.broken : Expecting → Reading
  | .value => .brokenOff
  | .firstItem => .array [] false
  | .firstName => .object [] false
  | .name members => .object members.reverse false
  | .colon members _ => .object members.reverse false
  | .endOf reading => reading

/-- Puts a value into the frames around it, which stay open. -/
def breakOff (value : Reading) : List Frame → Reading
  | [] => value
  | .array items :: frames => breakOff (.array (value :: items).reverse false) frames
  | .object members name :: frames =>
    breakOff (.object ((name, value) :: members).reverse false) frames

/-- The value of a text, and whether the text is that value and no more. -/
structure Document where
  root : Reading
  complete : Bool

/-- Reads on from a given state. -/
def readFrom (expecting : Expecting) (frames : List Frame) : List (Option Token) → Document
  | [] =>
    match expecting, frames with
    | .endOf value, [] => ⟨value, true⟩
    | _, _ => ⟨breakOff expecting.broken frames, false⟩
  | none :: _ => ⟨breakOff expecting.broken frames, false⟩
  | some token :: rest =>
    match advance frames expecting token with
    | some (expecting, frames) => readFrom expecting frames rest
    | none => ⟨breakOff expecting.broken frames, false⟩

def Document.ofText (text : String) : Document := readFrom .value [] (scan text)

namespace Reading

mutual

/-- The value can be held in memory before anybody asks for its parts: it was read to its end, all
of its strings have a text, its numbers are in the range of double precision, and it nests no
deeper than `depth`. -/
def isStorable (depth : Nat) : Reading → Bool
  | null | bool _ => true
  | number numeral => numeral.inDoubleRange
  | string text => text.isSome
  | array items closed =>
    match depth with
    | 0 => false
    | depth + 1 => closed && areStorable depth items
  | object members closed =>
    match depth with
    | 0 => false
    | depth + 1 => closed && haveStorableMembers depth members
  | brokenOff => false

def areStorable (depth : Nat) : List Reading → Bool
  | [] => true
  | item :: rest => isStorable depth item && areStorable depth rest

def haveStorableMembers (depth : Nat) : List (Option String × Reading) → Bool
  | [] => true
  | (name, value) :: rest =>
    name.isSome && isStorable depth value && haveStorableMembers depth rest

end

mutual

/-- The value with the members of each object in ascending order of their names, the last one of
those with one name. -/
def canonical : Reading → Reading
  | array items closed => array (canonicalItems items) closed
  | object members closed =>
    object ((canonicalMembers ∅ members).entries.map fun e => (some e.1, e.2)) closed
  | reading => reading

def canonicalItems : List Reading → List Reading
  | [] => []
  | item :: rest => canonical item :: canonicalItems rest

def canonicalMembers (sorted : SortedMap String Reading) :
    List (Option String × Reading) → SortedMap String Reading
  | [] => sorted
  | (some name, value) :: rest => canonicalMembers (sorted.insert name (canonical value)) rest
  | (none, _) :: rest => canonicalMembers sorted rest

end

end Reading

end Json

end WithdrawalPool
