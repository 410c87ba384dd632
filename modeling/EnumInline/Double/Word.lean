import EnumInline.Double.Basic

/-!
Numbers as words of 32 bits. The whole part of a number is brought into the range of a word by operations
on doubles, each of which rounds, and is then read as a word with a sign.
-/

namespace EnumInline.Double

def isFinite : Double → Bool
  | .finite _ _ _ => true
  | _ => false

def isBelowZero : Double → Bool
  | .finite negative units _ => negative && units != 0
  | .infinity negative => negative
  | .nan => false

/-- The number without its fraction. -/
def truncate : Double → Double
  | .finite negative units _ => nearest negative (units / unitsPerOne * unitsPerOne) 1
  | x => x

/-- What is left of a number if whole multiples of the modulus are taken away from its magnitude. -/
def remainder : (x modulus : Double) → Double
  | .finite negative units _, .finite _ modulus _ =>
      if modulus = 0 then .nan else nearest negative (units % modulus) 1
  | .finite negative units h, .infinity _ => .finite negative units h
  | _, _ => .nan

/-- The remainder moved up by the modulus if it is below zero. -/
def wrap (x modulus : Double) : Double :=
  let left := x.remainder modulus
  if left.isBelowZero then left.add (if modulus.isBelowZero then modulus.negate else modulus) else left

def wordCount : Double := ofInt (Nat.pow 2 32)

/-- The whole part as a word. Numbers beyond the least or the largest word become that word. -/
def toWord : Double → UInt32
  | .finite false units _ => .ofNatClamp (units / unitsPerOne)
  | .infinity false => 0xffffffff
  | _ => 0

/-- The whole part modulo `2 ^ 32`, as a signed word. Numbers that are not finite give zero. -/
def toInt32 (x : Double) : Int32 :=
  if x.isFinite then (x.truncate.wrap wordCount).toWord.toInt32 else 0

/-- The bitwise complement of the whole part as a word. -/
def complement (x : Double) : Double := ofInt (~~~x.toInt32).toInt

end EnumInline.Double
