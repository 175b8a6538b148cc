import CombinatorJson.Numeric.Nearest

set_option autoImplicit false

namespace CombinatorJson

inductive Width where
  | w8
  | w16
  | w32
  | w64
  | word
deriving DecidableEq

namespace Width

def bits : Width → Nat
  | .w8 => 8
  | .w16 => 16
  | .w32 => 32
  | .w64 => 64
  | .word => 64 -- of a 64-bit machine

def name : Width → String
  | .w8 => "8"
  | .w16 => "16"
  | .w32 => "32"
  | .w64 => "64"
  | .word => "size"

end Width

structure IntegerType where
  signed : Bool
  width : Width
deriving DecidableEq

namespace IntegerType

def name (type : IntegerType) : String :=
  (if type.signed then "i" else "u") ++ type.width.name

def least (type : IntegerType) : Int :=
  if type.signed then -Int.pow 2 (type.width.bits - 1) else 0

def greatest (type : IntegerType) : Int :=
  if type.signed then Int.pow 2 (type.width.bits - 1) - 1 else Int.pow 2 type.width.bits - 1

def Contains (type : IntegerType) (value : Int) : Prop :=
  type.least ≤ value ∧ value ≤ type.greatest

instance (type : IntegerType) (value : Int) : Decidable (type.Contains value) := by
  unfold Contains
  infer_instance

def isExact (type : IntegerType) : Bool :=
  type.width.bits ≤ 32

end IntegerType

namespace Double

/-- The double nearest to a whole number of moderate size is itself a whole number. -/
def roundInt? (value : Int) : Option Int :=
  (Binary.ofInt value : Double).integer?

def addInts? (left right : Int) : Option Int := do
  roundInt? ((← roundInt? left) + (← roundInt? right))

end Double

namespace IntegerType

/-- The bounds are doubles themselves: the least value, and the sum of the greatest value and one,
which every accepted number stays below. The greatest value of a 64-bit type rounds up, so its sum
is the first number out of range all the same. -/
def ofDouble? (type : IntegerType) (number : Double) : Option Int := do
  let value ← number.integer?
  let least ← Double.roundInt? type.least
  let limit ← Double.addInts? type.greatest 1
  if least ≤ value ∧ value < limit then some value else none

end IntegerType

end CombinatorJson
