set_option autoImplicit false

namespace CombinatorJson

namespace Utf16

def isHighSurrogate (unit : Nat) : Bool :=
  0xd800 ≤ unit && unit < 0xdc00

def isLowSurrogate (unit : Nat) : Bool :=
  0xdc00 ≤ unit && unit < 0xe000

def replacement : Char :=
  Char.ofNat 0xfffd

def single (unit : Nat) : Char :=
  if isHighSurrogate unit || isLowSurrogate unit then replacement else Char.ofNat unit

def pair (high low : Nat) : Char :=
  Char.ofNat (0x10000 + (high - 0xd800) * 0x400 + (low - 0xdc00))

def decode : List Nat → List Char
  | [] => []
  | [unit] => [single unit]
  | first :: second :: rest =>
    if isHighSurrogate first && isLowSurrogate second then
      pair first second :: decode rest
    else
      single first :: decode (second :: rest)

end Utf16

end CombinatorJson
