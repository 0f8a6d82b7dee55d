import TaskSpace.Memory.Segment

/-!
The address space: segments of home memory, the regions cached from them, and the mappings made.
-/
namespace TaskSpace

/-- Names a cached region: a run of blocks of one segment. -/
structure RegionKey where
  segment : Pointer
  first : Nat
  last : Nat
deriving DecidableEq, Repr

/-- A local copy of a run of blocks, shared by every mapping of exactly that run. -/
structure Region where
  key : RegionKey
  base : Pointer
  bytes : Bytes
deriving DecidableEq, Repr

/-- A region that mappings still use, and how many. -/
structure CacheEntry where
  key : RegionKey
  region : RegionId
  refs : Nat
deriving DecidableEq, Repr

/-- A range mapped into a region. It is live until its handle is released. -/
structure Mapping where
  start : Pointer
  len : Nat
  access : Access
  region : RegionId
  live : Bool
deriving DecidableEq, Repr

/-- Regions and mappings are kept for good, and named by their place in the list. -/
structure Space where
  numHomes : Nat
  nextAddr : Nat
  /-- Highest base first. -/
  segments : List Segment
  cache : List CacheEntry
  regions : List Region
  mappings : List Mapping
  live : Nat
deriving DecidableEq, Repr

namespace Space

/-- Segments start at multiples of a page, and are kept apart by at least one. -/
def page : Nat := 4096

/-- An empty space; no homes count as one. -/
def new (numHomes : Nat) : Space :=
  { numHomes := max numHomes 1, nextAddr := page
    segments := [], cache := [], regions := [], mappings := [], live := 0 }

def cachedRegions (s : Space) : Nat := s.cache.length

/-- The number of handles given out and not yet released. -/
def liveMappings (s : Space) : Nat := s.live

/-- The segment that contains `ptr`. -/
def segmentAt (s : Space) (ptr : Pointer) : Except Fault Segment :=
  if ptr.isNull then .error (.refused .nullPointer)
  else
    match s.segments.find? (fun seg => decide (seg.base.addr ≤ ptr.addr)) with
    | none => .error (.refused (.unknownSegment ptr))
    | some seg =>
      match seg.stop with
      | .error fault => .error fault
      | .ok stop => if ptr.addr < stop then .ok seg else .error (.refused (.unknownSegment ptr))

/-- Puts a segment in its place, over one of the same base. -/
def insertSegment (seg : Segment) : List Segment → List Segment
  | [] => [seg]
  | head :: rest =>
    if head.base.addr < seg.base.addr then seg :: head :: rest
    else if head.base = seg.base then seg :: rest
    else head :: insertSegment seg rest

/-- The space with a segment in place of the one of the same base. -/
def storeSegment (s : Space) (seg : Segment) : Space :=
  { s with segments := s.segments.map fun old => if old.base = seg.base then seg else old }

/-- How far an allocation of `size` bytes moves the next base: whole pages, and one more. -/
def reserve (size : Nat) : Except Fault Nat := do
  let pages ← Fault.product (Word.divUp size page) page
  Fault.sum pages page

/-- The most blocks a table of homes, of one word each, has room for. -/
def maxBlocks : Nat := Word.maxLength / 8

/-- Reserves the addresses of `size` bytes in blocks of `blockSize`. The addresses are gone even if
the table of homes or the bytes turn out too long. -/
def alloc (s : Space) (size blockSize : Nat) : Except Fault Pointer × Space :=
  if size = 0 ∨ blockSize = 0 then (.error (.refused .zeroSized), s)
  else
    match reserve size with
    | .error fault => (.error fault, s)
    | .ok reserved =>
      let base : Pointer := ⟨s.nextAddr⟩
      let s := { s with nextAddr := Word.wrap (s.nextAddr + reserved) }
      if maxBlocks < Word.divUp size blockSize ∨ Word.maxLength < size then
        (.error (.panicked .capacityOverflow), s)
      else
        let seg := Segment.fresh base size blockSize s.numHomes
        (.ok base, { s with segments := insertSegment seg s.segments })

/-- The handles outstanding in the segment at `base`, as its cached regions count them. -/
def refsIn (s : Space) (base : Pointer) : Nat :=
  Word.total ((s.cache.filter fun entry => entry.key.segment = base).map CacheEntry.refs)

/-- Frees the segment that starts at `base`, unless handles of it are outstanding. -/
def dealloc (s : Space) (base : Pointer) : Except Fault Space :=
  if s.segments.any (fun seg => seg.base = base) then
    if s.refsIn base > 0 then .error (.refused (.segmentInUse base (s.refsIn base)))
    else
      .ok { s with
        cache := s.cache.filter fun entry => entry.key.segment ≠ base
        segments := s.segments.filter fun seg => seg.base ≠ base }
  else .error (.refused (.unknownSegment base))

/-- The segment and the offset of a range that lies inside one segment. -/
def locate (s : Space) (ptr : Pointer) (len : Nat) : Except Fault (Segment × Nat) := do
  let seg ← s.segmentAt ptr
  let off ← seg.offset ptr len
  return (seg, off)

def put (s : Space) (ptr : Pointer) (new : Bytes) : Except Fault Space := do
  let (seg, off) ← s.locate ptr new.length
  let bytes ← seg.bytes.splice off new
  return s.storeSegment { seg with bytes }

def get (s : Space) (ptr : Pointer) (len : Nat) : Except Fault Bytes := do
  let (seg, off) ← s.locate ptr len
  seg.bytes.slice off (off + len)

def fill (s : Space) (ptr : Pointer) (value : UInt8) (len : Nat) : Except Fault Space := do
  let (seg, off) ← s.locate ptr len
  let bytes ← seg.bytes.splice off (List.replicate len value)
  return s.storeSegment { seg with bytes }

/-- Updates a range of home memory in place; the answer holds the bytes before. -/
def rmw (s : Space) (ptr : Pointer) (len : Nat) (update : Update) :
    Except Fault (Bytes × Space) := do
  let (seg, off) ← s.locate ptr len
  let old ← seg.bytes.slice off (off + len)
  let bytes ← seg.bytes.splice off (update.run old)
  return (old, s.storeSegment { seg with bytes })

def commit (s : Space) (ptr : Pointer) (new : Bytes) : Except Fault Space := s.put ptr new

/-- The home of the block that contains `ptr`. -/
def homeOf (s : Space) (ptr : Pointer) : Except Fault WorkerId := do
  let (seg, off) ← s.locate ptr 0
  seg.homeAt off

end Space

end TaskSpace
