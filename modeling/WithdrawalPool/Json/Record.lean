/-
Records in JSON.  A record is read from an object, its members in any order and other members
among them, or from an array of its fields in their order.  Either way the parts are judged in
the order of the text, and the first fault is reported.
-/
import WithdrawalPool.Address
import WithdrawalPool.Amount
import WithdrawalPool.Json.Position
import WithdrawalPool.Json.Reading
import WithdrawalPool.Json.Value

namespace WithdrawalPool

namespace Json

/-- Why a text does not decode.  All faults of form are one: it is no JSON, or the wrong JSON. -/
inductive DecodeError where
  | malformed
  | address (cause : AddressError)
  | amount (text : String)
deriving DecidableEq, Repr

namespace DecodeError

def amountMark : String := "invalid amount: "

/-- The words for a text that is no amount.  They repeat the text, less the place in a document
that it may end with; if that takes a part of the mark along, there are no words. -/
def amountMessage? (text : String) : Option String :=
  let message := Position.drop (amountMark ++ text)
  if amountMark.toList.isPrefixOf message.toList then some message else none

/-- The words for a fault of content.  Faults of form have none. -/
def message? : DecodeError → Option String
  | .malformed => none
  | .address cause => some cause.message
  | .amount text => amountMessage? text

end DecodeError

/-- Reads values of a type. -/
abbrev Decoder (α : Type) := Reading → Except DecodeError α

namespace Decoder

def text : Decoder String
  | .string (some s) => .ok s
  | _ => .error .malformed

def bool : Decoder Bool
  | .bool b => .ok b
  | _ => .error .malformed

def uint64 : Decoder UInt64
  | .number n =>
    match n.uint64? with
    | some value => .ok value
    | none => .error .malformed
  | _ => .error .malformed

def address : Decoder Address := fun r => do
  (Address.ofText (← text r)).mapError .address

def amount : Decoder Nat := fun r => do
  let s ← text r
  match Amount.ofText? s with
  | some n => return n
  | none => throw (.amount s)

/-- Reads null as nothing. -/
def optional {α : Type} (decoder : Decoder α) : Decoder (Option α)
  | .null => .ok none
  | r => some <$> decoder r

/-- Reads every item of an array. -/
def list {α : Type} (decoder : Decoder α) : Decoder (List α)
  | .array items closed => do
    let values ← items.mapM decoder
    if closed then return values else throw .malformed
  | _ => .error .malformed

/-- Decodes a whole text. -/
def run {α : Type} (decoder : Decoder α) (s : String) : Except DecodeError α := do
  let document := Document.ofText s
  let value ← decoder document.root
  if document.complete then return value else throw .malformed

end Decoder

/-- How values of `α` are written as records.  The fields are named by `ι`, and `T i` is the type
of field `i`. -/
structure RecordFormat (α ι : Type) (T : ι → Type) where
  /-- The fields in their order. -/
  fields : List ι
  name : ι → String
  read : (i : ι) → Decoder (T i)
  write : (i : ι) → T i → Json
  get : α → (i : ι) → T i
  make : ((i : ι) → T i) → α
  /-- What a field holds that an object does not mention. -/
  absent : (i : ι) → Option (T i) := fun _ => none
  /-- What a field holds that an array is too short for. -/
  beyond : (i : ι) → Option (T i) := fun _ => none
  mem_fields : ∀ i, i ∈ fields
  make_get : ∀ a, make (get a) = a

namespace RecordFormat

variable {α ι : Type} {T : ι → Type} [DecidableEq ι] (format : RecordFormat α ι T)

/-- The fields that have been read. -/
abbrev Slots (T : ι → Type) := (i : ι) → Option (T i)

def emptySlots : Slots T := fun _ => none

/-- Fills a field. -/
def fill (slots : Slots T) (i : ι) (value : T i) : Slots T :=
  fun j => if h : i = j then some (h ▸ value) else slots j

/-- Makes a value of the fields that were read, and of what the others hold. -/
def complete (default : (i : ι) → Option (T i)) (slots : Slots T) : Except DecodeError α :=
  if h : ∀ i ∈ format.fields, ((slots i).or (default i)).isSome = true then
    .ok (format.make fun i => ((slots i).or (default i)).get (h i (format.mem_fields i)))
  else .error .malformed

/-- Reads a member.  A field may be mentioned once; what is no field is passed over. -/
def readMember (slots : Slots T) : Member → Except DecodeError (Slots T)
  | (none, _) => .error .malformed
  | (some name, value) =>
    match format.fields.find? (format.name · = name) with
    | none => .ok slots
    | some i =>
      if (slots i).isSome then .error .malformed
      else do return fill slots i (← format.read i value)

/-- Reads items into fields, one after the other.  Items without a field are refused. -/
def readItems (slots : Slots T) : List ι → List Reading → Except DecodeError (Slots T)
  | _, [] => .ok slots
  | [], _ :: _ => .error .malformed
  | i :: fields, item :: items => do
    readItems (fill slots i (← format.read i item)) fields items

def ofMembers (members : List Member) (closed : Bool) : Except DecodeError α := do
  let slots ← members.foldlM format.readMember emptySlots
  if closed then format.complete format.absent slots else throw .malformed

def ofItems (items : List Reading) (closed : Bool) : Except DecodeError α := do
  let slots ← format.readItems emptySlots format.fields items
  if closed then format.complete format.beyond slots else throw .malformed

def decode : Decoder α
  | .object members closed => format.ofMembers members closed
  | .array items closed => format.ofItems items closed
  | _ => .error .malformed

/-- The members of a value, in the order of the fields. -/
def members (a : α) : List (String × Json) :=
  format.fields.map fun i => (format.name i, format.write i (format.get a i))

def encode (a : α) : Json := .object (format.members a)

end RecordFormat

end Json

end WithdrawalPool
