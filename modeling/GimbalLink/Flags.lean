/-
  Sets of flag bits.

  A set is a word of bits. The type names the bits that are known, but a set may
  hold others: they come from newer firmware or stored settings and are kept as
  they are.
-/
namespace GimbalLink

/-- A set of flags in a word of `w` bits, of which `known` have a meaning. -/
structure FlagSet {w : Nat} (known : BitVec w) where
  bits : BitVec w
  deriving DecidableEq, Repr

namespace FlagSet

variable {w : Nat} {known : BitVec w}

def empty : FlagSet known := ⟨0⟩

instance : Inhabited (FlagSet known) := ⟨empty⟩

/-- All of `other` is in the set. -/
def contains (s other : FlagSet known) : Bool := s.bits &&& other.bits == other.bits

def union (s other : FlagSet known) : FlagSet known := ⟨s.bits ||| other.bits⟩

/-- The set of some bits, if every one of them is known. -/
def ofBits? (bits : BitVec w) : Option (FlagSet known) :=
  if bits &&& known = bits then some ⟨bits⟩ else none

/-- The set of those bits that are known. -/
def truncate (bits : BitVec w) : FlagSet known := ⟨bits &&& known⟩

/-- The flags of a list whose condition holds. -/
def ofList (flags : List (FlagSet known × Bool)) : FlagSet known :=
  flags.foldl (fun s f => if f.2 then s.union f.1 else s) empty

end FlagSet

end GimbalLink
