import TaskSpace.Memory.Mapping

/-!
The texts of a space and of a mapping inside a description.
-/
namespace TaskSpace

def RegionKey.describe (key : RegionKey) : String :=
  "RegionKey \x7b segment: " ++ key.segment.describe ++ ", first_block: " ++ toString key.first
    ++ ", last_block: " ++ toString key.last ++ " \x7d"

def Region.describe (region : Region) : String :=
  "LocalRegion \x7b key: " ++ region.key.describe ++ ", base: " ++ region.base.describe
    ++ ", len: " ++ toString region.bytes.length ++ " \x7d"

def Segment.describe (seg : Segment) : String :=
  "Segment \x7b base: " ++ seg.base.describe ++ ", size: " ++ toString seg.size
    ++ ", block_size: " ++ toString seg.blockSize ++ " \x7d"

namespace Space

def describeRegion (s : Space) (id : RegionId) : String :=
  ((s.regions[id]?).map Region.describe).getD ""

def describeEntry (s : Space) (entry : CacheEntry) : String :=
  entry.key.describe ++ ": CacheEntry \x7b region: " ++ s.describeRegion entry.region
    ++ ", refs: " ++ toString entry.refs ++ " \x7d"

def describe (s : Space) : String :=
  let segments := s.segments.reverse.map fun seg => seg.base.describe ++ ": " ++ seg.describe
  "GlobalSpace \x7b num_homes: " ++ toString s.numHomes ++ ", next_addr: " ++ toString s.nextAddr
    ++ ", segments: RwLock \x7b data: \x7b" ++ ", ".intercalate segments ++ "\x7d \x7d, cache: \x7b"
    ++ ", ".intercalate (s.cache.map s.describeEntry) ++ "\x7d, live: " ++ toString s.live
    ++ " \x7d"

def describeHandle (s : Space) (mapping : Mapping) : String :=
  "GasHandle \x7b mapping: Mapping \x7b ptr: " ++ mapping.start.describe ++ ", len: "
    ++ toString mapping.len ++ ", flags: " ++ mapping.access.describe ++ ", region: "
    ++ s.describeRegion mapping.region ++ ", live: " ++ toString mapping.live ++ " \x7d \x7d"

end Space

end TaskSpace
