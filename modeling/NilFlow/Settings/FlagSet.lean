/-!
# Flag sets

A set of switches held in the eight bits of a mask. An operation takes a mask of flags, so it may concern several
switches at once.

* `FlagSet.ofFlags`: the set with the given flags.
* `enable`, `disable`, `set`: the set with flags switched on or off.
* `enabled`: whether any flag of a mask is on.
-/

namespace NilFlow

/-- A set of at most eight switches. -/
structure FlagSet where
  bits : UInt8
deriving DecidableEq, Repr, Inhabited

namespace FlagSet

def empty : FlagSet := ⟨0⟩

/-- The set with all switches of a mask on. -/
def enable (s : FlagSet) (mask : UInt8) : FlagSet := ⟨s.bits ||| mask⟩

def disable (s : FlagSet) (mask : UInt8) : FlagSet := ⟨s.bits &&& ~~~mask⟩

def set (s : FlagSet) (mask : UInt8) (on : Bool) : FlagSet := if on then s.enable mask else s.disable mask

/-- Whether any switch of a mask is on. -/
def enabled (s : FlagSet) (mask : UInt8) : Bool := s.bits &&& mask != 0

def ofFlags (masks : List UInt8) : FlagSet := masks.foldl enable empty

def switches : List UInt8 := [1, 2, 4, 8, 16, 32, 64, 128]

def toList (s : FlagSet) : List UInt8 := switches.filter s.enabled

end FlagSet

end NilFlow
