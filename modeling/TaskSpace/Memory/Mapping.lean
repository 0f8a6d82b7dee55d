import TaskSpace.Memory.Space

/-!
Mapping ranges of global memory into local regions, reading and writing through the mappings, and
releasing them.
-/
namespace TaskSpace.Space

/-- What `localize` settles before it changes anything: where a range lies and the blocks that it
touches. -/
structure Placement where
  segment : Segment
  first : Nat
  last : Nat

/-- The refusals of `localize`, in order: the flags, an empty range, then the place of the range. -/
def place (s : Space) (ptr : Pointer) (len : Nat) (access : Access) : Except Fault Placement :=
  match access.validate with
  | .error error => .error (.refused error)
  | .ok _ =>
    if len = 0 then .error (.refused .zeroSized)
    else
      match s.locate ptr len with
      | .error fault => .error fault
      | .ok (segment, off) =>
        .ok ⟨segment, segment.blockOf off, segment.blockOf (off + len - 1)⟩

def entry? (s : Space) (key : RegionKey) : Option CacheEntry :=
  s.cache.find? fun entry => entry.key = key

def updateEntry (s : Space) (key : RegionKey) (f : CacheEntry → CacheEntry) : Space :=
  { s with cache := s.cache.map fun entry => if entry.key = key then f entry else entry }

def removeEntry (s : Space) (key : RegionKey) : Space :=
  { s with cache := s.cache.filter fun entry => entry.key ≠ key }

def setRegion (s : Space) (region : RegionId) (bytes : Bytes) : Space :=
  { s with regions := s.regions.modify region fun old => { old with bytes } }

/-- The region for `key` with one more user: the cached one, reloaded if `refresh` says so, or a new
copy of home memory. -/
def acquire (s : Space) (seg : Segment) (key : RegionKey) (refresh : Bool) :
    Except Fault RegionId × Space :=
  match s.entry? key with
  | some entry =>
    match Fault.sum entry.refs 1 with
    | .error fault => (.error fault, s)
    | .ok refs =>
      let s := s.updateEntry key fun old => { old with refs }
      if refresh then
        match seg.load key.first key.last, s.regions[entry.region]? with
        | .ok fresh, some region =>
          if fresh.length = region.bytes.length then
            (.ok entry.region, s.setRegion entry.region fresh)
          else (.error (Bytes.outOfRange fresh.length region.bytes.length), s)
        | .error fault, _ => (.error fault, s)
        | .ok fresh, none => (.error (Bytes.outOfRange fresh.length 0), s)
      else (.ok entry.region, s)
  | none =>
    let made : Except Fault Region := do
      let (start, _) ← seg.blockRange key.first key.last
      let base ← Fault.sum seg.base.addr start
      let bytes ← seg.load key.first key.last
      return { key, base := ⟨base⟩, bytes }
    match made with
    | .error fault => (.error fault, s)
    | .ok region =>
      let id := s.regions.length
      (.ok id, { s with
        regions := s.regions ++ [region]
        cache := s.cache ++ [{ key, region := id, refs := 1 }] })

/-- Maps `len` bytes at `ptr` for `worker`. Ownership moves before the cached region is looked for. -/
def localize (s : Space) (ptr : Pointer) (len : Nat) (access : Access) (worker : WorkerId) :
    Except Fault MappingId × Space :=
  match s.place ptr len access with
  | .error fault => (.error fault, s)
  | .ok ⟨seg, first, last⟩ =>
    let owned :=
      if access.takesOwnership then seg.migrate first last (worker % s.numHomes) else .ok seg
    match owned with
    | .error fault => (.error fault, s)
    | .ok seg =>
      let s := s.storeSegment seg
      match s.acquire seg ⟨seg.base, first, last⟩ access.refreshes with
      | (.error fault, s) => (.error fault, s)
      | (.ok region, s) =>
        (.ok s.mappings.length, { s with
          mappings := s.mappings ++ [{ start := ptr, len, access, region, live := true }]
          live := Word.wrap (s.live + 1) })

/-- Takes one user from a region, and drops the region from the cache with its last one. -/
def giveUp (s : Space) (region : RegionId) (key : RegionKey) : Space :=
  match s.entry? key with
  | some entry =>
    if entry.region = region then
      if entry.refs - 1 = 0 then s.removeEntry key
      else s.updateEntry key fun old => { old with refs := old.refs - 1 }
    else s
  | none => s

/-- Releases a mapping: it is dead from now on, and its region has one user less. -/
def unlocalize (s : Space) (id : MappingId) : Space :=
  match s.mappings[id]? with
  | none => s
  | some mapping =>
    let s := { s with mappings := s.mappings.modify id fun old => { old with live := false } }
    let s := match s.regions[mapping.region]? with
      | some region => s.giveUp mapping.region region.key
      | none => s
    { s with live := Word.wrap (s.live + Word.top) }

/-- Releases mappings from the first to the last. -/
def unlocalizeAll (s : Space) (ids : List MappingId) : Space := ids.foldl unlocalize s

def regionOffset (mapping : Mapping) (region : Region) : Nat :=
  (mapping.start.offsetFrom region.base).getD 0

def read (s : Space) (id : MappingId) : Except Fault Bytes :=
  match s.mappings[id]? with
  | none => .ok []
  | some mapping =>
    if mapping.live then
      match s.regions[mapping.region]? with
      | none => .ok []
      | some region => do
        let start := regionOffset mapping region
        let stop ← Fault.sum start mapping.len
        region.bytes.slice start stop
    else .error (.refused (.unlocalized mapping.start))

/-- Whether `len` bytes from `off` on stay inside `size` bytes. -/
def fits (off len size : Nat) : Bool :=
  match Word.add? off len with
  | some stop => stop ≤ size
  | none => false

/-- Writes at `off` in the region of a mapping; home memory stays as it is. The refusals come in the
order read only, out of bounds, released. -/
def write (s : Space) (id : MappingId) (off : Nat) (new : Bytes) : Except Fault Space :=
  match s.mappings[id]? with
  | none => .ok s
  | some mapping =>
    if !mapping.access.isWritable then .error (.refused (.readOnly mapping.start))
    else if !fits off new.length mapping.len then
      .error (.refused (.outOfBounds (mapping.start.wrappingAdd off) new.length))
    else if !mapping.live then .error (.refused (.unlocalized mapping.start))
    else
      match s.regions[mapping.region]? with
      | none => .ok s
      | some region => do
        let start ← Fault.sum (regionOffset mapping region) off
        let bytes ← region.bytes.splice start new
        return s.setRegion mapping.region bytes

end TaskSpace.Space
