/-!
What a panic carries, and the panics of checked arithmetic.
-/
namespace TaskSpace

/-- A payload is a text fixed in the program, a text built at run time, or a bare number. -/
inductive Payload where
  | fixed (text : String)
  | built (text : String)
  | number (value : Int)
deriving DecidableEq, Repr, Inhabited

namespace Payload

def text? : Payload → Option String
  | fixed text => some text
  | built text => some text
  | number _ => none

def addOverflow : Payload := fixed "attempt to add with overflow"

def mulOverflow : Payload := fixed "attempt to multiply with overflow"

def capacityOverflow : Payload := fixed "capacity overflow"

end Payload

end TaskSpace
