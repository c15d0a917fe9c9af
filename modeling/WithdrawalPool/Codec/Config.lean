/-
The configuration document.  Each field that a document does not give falls back to a value of its
own.
-/
import WithdrawalPool.Codec.Records

namespace WithdrawalPool

open Json (Decoder RecordFormat DecodeError)

namespace Config

inductive Field where
  | bridgeChainId
  | bridgeContract
  | maxBatchElements
  | rejectZeroDestination
deriving DecidableEq

def Field.Value : Field → Type
  | .bridgeChainId => UInt64
  | .bridgeContract => Option Address
  | .maxBatchElements => UInt64
  | .rejectZeroDestination => Bool

/-- What a field holds that a document does not give. -/
def Field.fallback : (i : Field) → i.Value
  | .bridgeChainId => (0 : UInt64)
  | .bridgeContract => none
  | .maxBatchElements => defaultMaxBatchElements
  | .rejectZeroDestination => false

def fieldsOf (c : Config) : (i : Field) → i.Value
  | .bridgeChainId => c.bridgeChainId
  | .bridgeContract => c.bridgeContract
  | .maxBatchElements => c.maxBatchElements
  | .rejectZeroDestination => c.rejectZeroDestination

def format : RecordFormat Config Field Field.Value where
  fields := [.bridgeChainId, .bridgeContract, .maxBatchElements, .rejectZeroDestination]
  name
    | .bridgeChainId => "bridgeChainId"
    | .bridgeContract => "bridgeContractAddress"
    | .maxBatchElements => "maxBatchElements"
    | .rejectZeroDestination => "rejectZeroDestination"
  read
    | .bridgeChainId => Decoder.uint64
    | .bridgeContract => Decoder.optional Decoder.address
    | .maxBatchElements => Decoder.uint64
    | .rejectZeroDestination => Decoder.bool
  write
    | .bridgeChainId => Json.uint64
    | .bridgeContract => Json.optional Json.address
    | .maxBatchElements => Json.uint64
    | .rejectZeroDestination => Json.bool
  get := fieldsOf
  make v :=
    ⟨v .bridgeChainId, v .bridgeContract, v .maxBatchElements, v .rejectZeroDestination⟩
  absent i := some i.fallback
  beyond i := some i.fallback
  mem_fields i := by cases i <;> simp
  make_get _ := rfl

/-- The argument error that a document is refused with. -/
def refusal (e : DecodeError) : PoolError :=
  .invalidArgument (.config (e.message?.getD "malformed document"))

/-- Reads a configuration document. -/
def ofText (text : String) : Except PoolError Config :=
  (Decoder.run format.decode text).mapError refusal

end Config

end WithdrawalPool
