/-!
How a range of global memory may be accessed once it is mapped, and what mapping it does to the
cached copy and to the homes of its blocks.
-/
namespace TaskSpace

/-- A set of access flags, of which unknown bits are kept. -/
structure Access where
  bits : UInt8
deriving DecidableEq, Repr, Inhabited

namespace Access

def readOnly : Access := ⟨1⟩

def exclusive : Access := ⟨2⟩

def sharedWrite : Access := ⟨4⟩

def own : Access := ⟨8⟩

def contains (a flag : Access) : Bool := a.bits &&& flag.bits = flag.bits

/-- Writes go through an exclusive or a shared mapping. -/
def isWritable (a : Access) : Bool := a.contains exclusive || a.contains sharedWrite

/-- A shared mapping reloads the cached copy from home memory. -/
def refreshes (a : Access) : Bool := a.contains sharedWrite

/-- Whether mapping migrates the homes of the covered blocks. -/
def takesOwnership (a : Access) : Bool := a.contains own

/-- The modes, of which a mapping has exactly one. -/
def modes : List Access := [readOnly, exclusive, sharedWrite]

/-- Exactly one mode is set; the other bits are free. -/
def isValid (a : Access) : Bool := modes.countP a.contains = 1

/-- The flags that have a name, in the order they are written. -/
def named : List (Access × String) :=
  [(readOnly, "RO"), (exclusive, "RWE"), (sharedWrite, "RWS"), (own, "OWN")]

def unnamed (a : Access) : UInt8 := a.bits &&& 0xf0

/-- Names joined by bars, then the unknown bits in hexadecimal; `0x0` for the empty set. -/
def flagText (a : Access) : String :=
  let known := named.filterMap fun (flag, name) => if a.contains flag then some name else none
  let unknown :=
    if a.unnamed = 0 then [] else ["0x" ++ String.ofList (Nat.toDigits 16 a.unnamed.toNat)]
  if a.bits = 0 then "0x0" else " | ".intercalate (known ++ unknown)

def describe (a : Access) : String := "AccessFlags(" ++ a.flagText ++ ")"

end Access

end TaskSpace
