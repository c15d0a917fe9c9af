/-
The JSON forms of the records.  Amounts are strings of decimal digits, so that they survive
readers with numbers of limited size.
-/
import WithdrawalPool.ExecutionContext
import WithdrawalPool.IdCounter
import WithdrawalPool.Json.Record
import WithdrawalPool.Pool.Fees

namespace WithdrawalPool

open Json (Decoder RecordFormat)

namespace Json

def address (a : Address) : Json := .string a.text

def amount (n : Nat) : Json := .string (Amount.text n)

def uint64 (n : UInt64) : Json := .nat n.toNat

def optional {α : Type} (encode : α → Json) : Option α → Json
  | none => .null
  | some a => encode a

end Json

namespace Coin

inductive Field where
  | denom
  | amount
deriving DecidableEq

def Field.Value : Field → Type
  | .denom => Denom
  | .amount => Nat

def format : RecordFormat Coin Field Field.Value where
  fields := [.denom, .amount]
  name
    | .denom => "denom"
    | .amount => "amount"
  read
    | .denom => Decoder.text
    | .amount => Decoder.amount
  write
    | .denom => Json.string
    | .amount => Json.amount
  get c
    | .denom => c.denom
    | .amount => c.amount
  make v := ⟨v .denom, v .amount⟩
  mem_fields i := by cases i <;> simp
  make_get _ := rfl

end Coin

namespace TokenAmount

inductive Field where
  | contract
  | amount
deriving DecidableEq

def Field.Value : Field → Type
  | .contract => Address
  | .amount => Nat

def format : RecordFormat TokenAmount Field Field.Value where
  fields := [.contract, .amount]
  name
    | .contract => "contract"
    | .amount => "amount"
  read
    | .contract => Decoder.address
    | .amount => Decoder.amount
  write
    | .contract => Json.address
    | .amount => Json.amount
  get t
    | .contract => t.contract
    | .amount => t.amount
  make v := ⟨v .contract, v .amount⟩
  mem_fields i := by cases i <;> simp
  make_get _ := rfl

end TokenAmount

namespace ExecutionContext

inductive Field where
  | blockHeight
deriving DecidableEq

def Field.Value : Field → Type
  | .blockHeight => UInt64

def format : RecordFormat ExecutionContext Field Field.Value where
  fields := [.blockHeight]
  name
    | .blockHeight => "block_height"
  read
    | .blockHeight => Decoder.uint64
  write
    | .blockHeight => Json.uint64
  get c
    | .blockHeight => c.blockHeight
  make v := ⟨v .blockHeight⟩
  mem_fields i := by cases i; simp
  make_get _ := rfl

end ExecutionContext

namespace IdCounter

inductive Field where
  | next
deriving DecidableEq

def Field.Value : Field → Type
  | .next => Option UInt64

def format : RecordFormat IdCounter Field Field.Value where
  fields := [.next]
  name
    | .next => "next"
  read
    | .next => Decoder.optional Decoder.uint64
  write
    | .next => Json.optional Json.uint64
  get c
    | .next => c.next
  make v := ⟨v .next⟩
  absent
    | .next => some none
  mem_fields i := by cases i; simp
  make_get _ := rfl

end IdCounter

namespace Transfer

inductive Field where
  | id
  | sender
  | destination
  | token
  | fee
deriving DecidableEq

def Field.Value : Field → Type
  | .id => UInt64
  | .sender => AccountId
  | .destination => Address
  | .token => TokenAmount
  | .fee => TokenAmount

def format : RecordFormat Transfer Field Field.Value where
  fields := [.id, .sender, .destination, .token, .fee]
  name
    | .id => "id"
    | .sender => "sender"
    | .destination => "destination"
    | .token => "token"
    | .fee => "fee"
  read
    | .id => Decoder.uint64
    | .sender => fun r => AccountId.mk <$> Decoder.text r
    | .destination => Decoder.address
    | .token => TokenAmount.format.decode
    | .fee => TokenAmount.format.decode
  write
    | .id => Json.uint64
    | .sender => fun a => .string a.text
    | .destination => Json.address
    | .token => TokenAmount.format.encode
    | .fee => TokenAmount.format.encode
  get t
    | .id => t.id
    | .sender => t.sender
    | .destination => t.destination
    | .token => t.token
    | .fee => t.fee
  make v := ⟨v .id, v .sender, v .destination, v .token, v .fee⟩
  mem_fields i := by cases i <;> simp
  make_get _ := rfl

end Transfer

namespace FeeSummary

inductive Field where
  | token
  | totalFees
  | txCount
deriving DecidableEq

def Field.Value : Field → Type
  | .token => Address
  | .totalFees => Nat
  | .txCount => UInt64

def format : RecordFormat FeeSummary Field Field.Value where
  fields := [.token, .totalFees, .txCount]
  name
    | .token => "token"
    | .totalFees => "totalFees"
    | .txCount => "txCount"
  read
    | .token => Decoder.address
    | .totalFees => Decoder.amount
    | .txCount => Decoder.uint64
  write
    | .token => Json.address
    | .totalFees => Json.amount
    | .txCount => Json.uint64
  get s
    | .token => s.token
    | .totalFees => s.totalFees
    | .txCount => s.txCount
  make v := ⟨v .token, v .totalFees, v .txCount⟩
  mem_fields i := by cases i <;> simp
  make_get _ := rfl

end FeeSummary

end WithdrawalPool
