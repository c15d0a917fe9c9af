/-
The JSON forms of events and of origins.  The type of an event stands among its members, or first
in an array.  It may come last, so the whole event is held in memory before its parts are judged.
-/
import WithdrawalPool.Codec.Records
import WithdrawalPool.Event

namespace WithdrawalPool

open Json (Decoder DecodeError Member Reading RecordFormat)

namespace ReceiptNotice

inductive Field where
  | contract
  | bridgeChainId
  | outgoingTxId
  | nonce
deriving DecidableEq

def Field.Value : Field → Type
  | .contract => Option Address
  | .bridgeChainId => UInt64
  | .outgoingTxId => UInt64
  | .nonce => UInt64

def format : RecordFormat ReceiptNotice Field Field.Value where
  fields := [.contract, .bridgeChainId, .outgoingTxId, .nonce]
  name
    | .contract => "contract"
    | .bridgeChainId => "bridge_chain_id"
    | .outgoingTxId => "outgoing_tx_id"
    | .nonce => "nonce"
  read
    | .contract => Decoder.optional Decoder.address
    | .bridgeChainId => Decoder.uint64
    | .outgoingTxId => Decoder.uint64
    | .nonce => Decoder.uint64
  write
    | .contract => Json.optional Json.address
    | .bridgeChainId => Json.uint64
    | .outgoingTxId => Json.uint64
    | .nonce => Json.uint64
  get n
    | .contract => n.contract
    | .bridgeChainId => n.bridgeChainId
    | .outgoingTxId => n.outgoingTxId
    | .nonce => n.nonce
  make v := ⟨v .contract, v .bridgeChainId, v .outgoingTxId, v .nonce⟩
  absent
    | .contract => some none
    | _ => none
  mem_fields i := by cases i <;> simp
  make_get _ := rfl

end ReceiptNotice

namespace CancellationNotice

inductive Field where
  | contract
  | bridgeChainId
  | outgoingTxId
deriving DecidableEq

def Field.Value : Field → Type
  | .contract => Option Address
  | .bridgeChainId => UInt64
  | .outgoingTxId => UInt64

def format : RecordFormat CancellationNotice Field Field.Value where
  fields := [.contract, .bridgeChainId, .outgoingTxId]
  name
    | .contract => "contract"
    | .bridgeChainId => "bridge_chain_id"
    | .outgoingTxId => "outgoing_tx_id"
  read
    | .contract => Decoder.optional Decoder.address
    | .bridgeChainId => Decoder.uint64
    | .outgoingTxId => Decoder.uint64
  write
    | .contract => Json.optional Json.address
    | .bridgeChainId => Json.uint64
    | .outgoingTxId => Json.uint64
  get n
    | .contract => n.contract
    | .bridgeChainId => n.bridgeChainId
    | .outgoingTxId => n.outgoingTxId
  make v := ⟨v .contract, v .bridgeChainId, v .outgoingTxId⟩
  absent
    | .contract => some none
    | _ => none
  mem_fields i := by cases i <;> simp
  make_get _ := rfl

end CancellationNotice

namespace Event

/-- The types of events. -/
inductive Kind where
  | received
  | cancelled
deriving DecidableEq, Repr

def Kind.name : Kind → String
  | .received => "withdrawal_received"
  | .cancelled => "withdrawal_cancelled"

/-- Reads the type of an event. -/
def Kind.decode : Decoder Kind := fun r => do
  let s ← Decoder.text r
  if s = Kind.received.name then return .received
  if s = Kind.cancelled.name then return .cancelled
  throw .malformed

/-- The name of the member that holds the type. -/
def kindName : String := "type"

/-- The deepest nesting that an event is held in memory with. -/
def maxDepth : Nat := 127

def isKindMember (m : Member) : Bool := m.1 == some kindName

def ofMembers (members : List Member) : Kind → Except DecodeError Event
  | .received => .received <$> ReceiptNotice.format.ofMembers members true
  | .cancelled => .cancelled <$> CancellationNotice.format.ofMembers members true

def ofItems (items : List Reading) : Kind → Except DecodeError Event
  | .received => .received <$> ReceiptNotice.format.ofItems items true
  | .cancelled => .cancelled <$> CancellationNotice.format.ofItems items true

def decode : Decoder Event := fun r => do
  unless r.isStorable maxDepth do throw .malformed
  match r with
  | .object members _ =>
    match members.filter isKindMember with
    | [(_, kind)] => ofMembers (members.filter (!isKindMember ·)) (← Kind.decode kind)
    | _ => throw .malformed
  | .array (kind :: items) _ => ofItems items (← Kind.decode kind)
  | _ => throw .malformed

/-- The type comes first, and the members of the notice follow. -/
def encode : Event → Json
  | .received notice =>
    .object ((kindName, .string Kind.received.name) :: ReceiptNotice.format.members notice)
  | .cancelled notice =>
    .object ((kindName, .string Kind.cancelled.name) :: CancellationNotice.format.members notice)

end Event

namespace Origin

def decodeName (name : Option String) : Except DecodeError Origin :=
  if name = some Origin.native.name then .ok .native
  else if name = some Origin.bridged.name then .ok .bridged
  else .error .malformed

/-- Reads a name, or an object whose only member has the name and holds null. -/
def decode : Decoder Origin
  | .string name => decodeName name
  | .object [(name, .null)] true => decodeName name
  | _ => .error .malformed

def encode (o : Origin) : Json := .string o.name

end Origin

end WithdrawalPool
