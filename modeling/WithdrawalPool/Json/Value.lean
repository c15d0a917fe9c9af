/-
Values that are written as JSON.  They are written without blanks, the members of an object in
the order in which the object has them.
-/
import WithdrawalPool.Json.Token

namespace WithdrawalPool

/-- A value to be written as JSON. -/
inductive Json where
  | null
  | bool (value : Bool)
  | number (numeral : Json.Numeral)
  | string (text : String)
  | array (items : List Json)
  | object (members : List (String × Json))

namespace Json

mutual

/-- The tokens of a value. -/
def tokens : Json → List Token
  | null => [.null]
  | bool value => [.bool value]
  | number numeral => [.number numeral]
  | string text => [.string (some text)]
  | array items => .openArray :: itemTokens items ++ [.closeArray]
  | object members => .openObject :: memberTokens members ++ [.closeObject]

def itemTokens : List Json → List Token
  | [] => []
  | [item] => item.tokens
  | item :: rest => item.tokens ++ .comma :: itemTokens rest

def memberTokens : List (String × Json) → List Token
  | [] => []
  | [(name, value)] => .string (some name) :: .colon :: value.tokens
  | (name, value) :: rest =>
    .string (some name) :: .colon :: value.tokens ++ .comma :: memberTokens rest

end

/-- The text of a value, without blanks. -/
def write (value : Json) : String := String.ofList (value.tokens.flatMap Token.spell)

def nat (n : Nat) : Json := .number (.ofNat n)

end Json

end WithdrawalPool
