import Mathlib.Data.List.Perm.Basic
import TaskSpace.Proofs.Memory.AllOrNothing
import TaskSpace.Proofs.Memory.Commits

/-!
# Writing to disjoint ranges through mappings

Ranges that are mapped together may share a region, or have regions that overlap, with stale copies of
each other's bytes. A mapping commits the bytes of its own range only, and those are the bytes written
through it as long as the ranges are disjoint. So home memory changes in these ranges alone, however
the blocks lie.
-/

namespace TaskSpace

namespace Range

/-- No address lies in both ranges. -/
def Disjoint (r r' : Range) : Prop := ∀ addr, ¬ (r.Contains addr ∧ r'.Contains addr)

theorem Disjoint.symm {r r' : Range} (h : r.Disjoint r') : r'.Disjoint r := fun addr hc => h addr hc.symm

theorem disjoint_iff {r r' : Range} : r.Disjoint r' ↔
    r.len = 0 ∨ r'.len = 0 ∨ r.start.addr + r.len ≤ r'.start.addr ∨ r'.start.addr + r'.len ≤ r.start.addr := by
  simp only [Disjoint, Contains]
  refine ⟨fun h => ?_, fun h addr hc => by omega⟩
  have hlow := h r.start.addr
  have hhigh := h r'.start.addr
  omega

instance (r r' : Range) : Decidable (r.Disjoint r') := decidable_of_iff' _ disjoint_iff

theorem length_strided (ptr : Pointer) (stride rows rowLen : Nat) :
    (strided ptr stride rows rowLen).length = rows := by
  simp [strided]

theorem len_of_mem_strided {ptr : Pointer} {stride rows rowLen : Nat} {range : Range}
    (h : range ∈ strided ptr stride rows rowLen) : range.len = rowLen := by
  obtain ⟨row, _, rfl⟩ := List.mem_map.1 h
  rfl

end Range

def Mapping.range (m : Mapping) : Range := ⟨m.start, m.len⟩

/-! ## Data written to disjoint ranges of a flat memory -/

namespace FlatMemory

/-- Ranges hold their data, and every other byte is as before. -/
structure Scattered (f : FlatMemory) (ranges : List Range) (datas : List Bytes) (f' : FlatMemory) : Prop where
  extents : f'.extents = f.extents
  holds : List.Forall₂ (fun range data => f'.Holds range.start range.len data) ranges datas
  rest : ∀ addr, (∀ range ∈ ranges, ¬ range.Contains addr) → f'.byte addr = f.byte addr

theorem overwriteAll_scattered (f : FlatMemory) {ranges : List Range} {datas : List Bytes}
    (h : List.Forall₂ (fun range data => data.length = range.len) ranges datas)
    (hd : ranges.Pairwise Range.Disjoint) :
    f.Scattered ranges datas (f.overwriteAll (List.zipWith (fun range data => ⟨range.start, data⟩) ranges datas)) := by
  induction h generalizing f with
  | nil => exact ⟨rfl, .nil, fun _ _ => rfl⟩
  | @cons range data ranges datas hlen _ ih =>
    obtain ⟨hapart, hd⟩ := List.pairwise_cons.1 hd
    obtain ⟨hextents, hholds, hrest⟩ := ih (f.overwrite range.start data) hd
    refine ⟨hextents, .cons ?_ hholds, fun addr hout => ?_⟩
    · refine List.ext_getElem? fun i => ?_
      simp only [List.getElem?_map]
      by_cases hi : i < range.len
      · have hin : range.Contains (range.start.addr + i) := ⟨by omega, by omega⟩
        have hin' : Range.Contains ⟨range.start, data.length⟩ (range.start.addr + i) := by
          rw [hlen]
          exact hin
        have hbyte := hrest _ fun later hlater hc => hapart later hlater _ ⟨hin, hc⟩
        simp only [overwrite, if_pos hin', Nat.add_sub_cancel_left] at hbyte
        rw [List.getElem?_range hi, Option.map_some]
        refine (congrArg some hbyte).trans ?_
        rw [List.getElem?_eq_getElem (by omega), Option.map_some]
      · rw [List.getElem?_eq_none (by simpa using hi), List.getElem?_eq_none (by omega)]
        rfl
    · obtain ⟨hfirst, hlater⟩ := List.forall_mem_cons.1 hout
      have hout' : ¬ Range.Contains ⟨range.start, data.length⟩ addr := by rwa [hlen]
      rw [List.zipWith_cons_cons]
      exact (hrest addr hlater).trans (if_neg hout')

end FlatMemory

/-! ## Writes through mappings -/

namespace Space

variable {s s' : Space} {ids made : List MappingId} {stores : List Store} {reach : Nat} {id other : MappingId}
  {mapping seen : Mapping} {off : Nat} {new : Bytes} {access : Access} {worker : WorkerId} {ranges : List Range}

theorem write_keeps (hw : s.write id off new = .ok s') : s'.mappings = s.mappings ∧ s'.segments = s.segments := by
  rcases write_eq_ok hw with rfl | ⟨_, _, _, _, _, rfl⟩ <;> exact ⟨rfl, rfl⟩

/-- A live writable mapping takes bytes for any place inside its range. -/
theorem Current.exists_write (h : s.Current ids stores) (hp : s.Placed reach) (hm : s.mappings[id]? = some mapping)
    (hl : mapping.live = true) (hw : mapping.access.isWritable = true) (hle : off + new.length ≤ mapping.len) :
    ∃ s', s.write id off new = .ok s' := by
  obtain ⟨_, region, start, _, _, hregion, _, _, hoff, hfit, hbound, _⟩ := h.seen hp hm hl
  have hfits : fits off new.length mapping.len = true := by
    have hsum : Word.add? off new.length = some (off + new.length) := Word.add?_eq_some.2 ⟨by omega, rfl⟩
    simp only [fits, hsum, decide_eq_true_eq]
    exact hle
  have hsum : Fault.sum start off = .ok (start + off) := Fault.sum_eq_ok.2 ⟨by omega, rfl⟩
  have hsplice : region.bytes.splice (start + off) new =
      .ok (region.bytes.take (start + off) ++ new ++ region.bytes.drop (start + off + new.length)) :=
    Bytes.splice_eq_ok.2 ⟨by omega, rfl⟩
  simp only [Space.write, hm, hw, hl, hfits, hregion, hoff, hsum, Bool.not_true, Bool.false_eq_true, if_false, bind,
    Except.bind, hsplice]
  exact ⟨_, rfl⟩

/-- A mapping reads what was written through one of the same blocks where that lies in its range, and what
it read before elsewhere. -/
theorem Current.read_write (h : s.Current ids stores) (hp : s.Placed reach) (hw : s.write id off new = .ok s')
    (hm : s.mappings[id]? = some mapping) (hseen : s.mappings[other]? = some seen) (hl : seen.live = true) :
    ∃ bytes bytes', s.read other = .ok bytes ∧ s'.read other = .ok bytes' ∧ bytes.length = seen.len ∧
      bytes'.length = seen.len ∧ ∀ i < seen.len, bytes'[i]? =
        (if s.rangeOf id = s.rangeOf other ∧ mapping.start.addr + off ≤ seen.start.addr + i
          then new[seen.start.addr + i - (mapping.start.addr + off)]? else none).or bytes[i]? := by
  have hhome := write_sameHome hw
  have hp' := hp.of_sameHome hhome
  obtain ⟨hmappings, -⟩ := write_keeps hw
  have hseen' : s'.mappings[other]? = some seen := hmappings ▸ hseen
  obtain ⟨key, bytes, hkey, hread, hlen, hbytes⟩ := h.read hp hseen hl
  obtain ⟨key', bytes', hkey', hread', hlen', hbytes'⟩ := (h.write hp hw).read hp' hseen' hl
  obtain rfl : key = key' := by
    rw [rangeOf_eq_runOf hseen', hp.runOf_of_sameHome hhome, ← rangeOf_eq_runOf hseen, hkey] at hkey'
    exact Option.some.inj hkey'
  refine ⟨bytes, bytes', hread, hread', hlen, hlen', fun i hi => ?_⟩
  rcases write_cases hw with ⟨hnone, _⟩ | ⟨writer, hwriter, _, hlive, _, _⟩
  · cases hm.symm.trans hnone
  obtain rfl := Option.some.inj (hm.symm.trans hwriter)
  obtain ⟨mine, _, hmine, _⟩ := h.read hp hm hlive
  rw [hbytes' i hi, hbytes i hi, hkey, hmine]
  simp only [written, hw, hm, hmine, latest_snoc, Option.some.injEq]
  by_cases hsame : mine = key <;> simp [hsame]

/-- The ranges of two mappings are disjoint. -/
def Apart (s : Space) (id other : MappingId) : Prop :=
  ∀ mapping seen, s.mappings[id]? = some mapping → s.mappings[other]? = some seen → mapping.range.Disjoint seen.range

theorem Apart.symm (h : s.Apart id other) : s.Apart other id := fun _ _ hm hs => (h _ _ hs hm).symm

/-- A mapping of which the whole range is written reads just that. -/
theorem Current.read_written (h : s.Current ids stores) (hp : s.Placed reach) (hw : s.write id 0 new = .ok s')
    (hm : s.mappings[id]? = some mapping) (hl : mapping.live = true) (hlen : new.length = mapping.len) :
    s'.read id = .ok new := by
  obtain ⟨bytes, bytes', -, hread', -, hlen', hbytes⟩ := h.read_write hp hw hm hm hl
  rw [hread']
  refine congrArg _ (List.ext_getElem? fun i => ?_)
  by_cases hi : i < mapping.len
  · rw [hbytes i hi, Nat.add_zero, if_pos ⟨rfl, Nat.le_add_right _ _⟩, Nat.add_sub_cancel_left,
      List.getElem?_eq_getElem (by omega), Option.some_or]
  · rw [List.getElem?_eq_none (by omega), List.getElem?_eq_none (by omega)]

/-- What is written to a range does not reach a mapping of which the range is disjoint, be it of the same
blocks or not. -/
theorem Current.read_apart (h : s.Current ids stores) (hp : s.Placed reach) (hw : s.write id 0 new = .ok s')
    (hm : s.mappings[id]? = some mapping) (hlen : new.length = mapping.len) (hother : s.Alive other)
    (hapart : s.Apart id other) : s'.read other = s.read other := by
  obtain ⟨seen, hseen, hl⟩ := hother
  obtain ⟨bytes, bytes', hread, hread', hsize, hsize', hbytes⟩ := h.read_write hp hw hm hseen hl
  rw [hread, hread']
  refine congrArg _ (List.ext_getElem? fun i => ?_)
  by_cases hi : i < seen.len
  · rw [hbytes i hi]
    split
    · rename_i hc
      have hout : ¬ mapping.range.Contains (seen.start.addr + i) := fun hin =>
        hapart _ _ hm hseen _ ⟨hin, ⟨Nat.le_add_right _ _, Nat.add_lt_add_left hi _⟩⟩
      have hpast : new.length ≤ seen.start.addr + i - (mapping.start.addr + 0) := by
        simp only [Range.Contains, Mapping.range] at hout
        omega
      rw [List.getElem?_eq_none hpast, Option.none_or]
    · rw [Option.none_or]
  · rw [List.getElem?_eq_none (by omega), List.getElem?_eq_none (by omega)]

/-- Data can be written through a mapping, and fills its range. -/
def Accepts (s : Space) (id : MappingId) (data : Bytes) : Prop :=
  ∃ mapping, s.mappings[id]? = some mapping ∧ mapping.live = true ∧ mapping.access.isWritable = true ∧
    data.length = mapping.len

/-- Mappings read what was written through them, the ones apart from these read what they read before, and
home memory is as it was. -/
structure Wrote (s : Space) (writes : List (LocalRef × Bytes)) (s' : Space) : Prop where
  home : SameHome s s'
  mappings : s'.mappings = s.mappings
  reads : ∀ write ∈ writes, s'.read write.1.mapping = .ok write.2
  apart : ∀ id, s.Alive id → (∀ write ∈ writes, s.Apart write.1.mapping id) → s'.read id = s.read id

/-- Ranges that are all mapped are mapped one after the other. -/
theorem maps_of_localizeRest (he : AddressSpace.localizeRest access worker made ranges s = (.ok ids, s')) :
    ∃ new, ids = made ++ new ∧ Maps access worker s ranges new s' := by
  induction ranges generalizing s made with
  | nil =>
    cases he
    exact ⟨[], (List.append_nil _).symm, .nil s'⟩
  | cons range rest ih =>
    have hclass : AddressSpace.localize s = s.localize := rfl
    simp only [AddressSpace.localizeRest, hclass] at he
    split at he <;> rename_i hl
    · obtain ⟨new, rfl, hmaps⟩ := ih he
      exact ⟨_ :: new, by rw [List.append_assoc]; rfl, .cons hl hmaps⟩
    · cases he
    · cases he

end Space

/-! ## Mapping, writing and committing -/

/-- A range, the mapping of it, and the data for it. -/
structure Row where
  range : Range
  handle : MappingId
  data : Bytes

namespace Row

def ref (space : SpaceId) (row : Row) : LocalRef := ⟨space, row.handle⟩

def image (row : Row) : Image := ⟨row.range.start, row.data⟩

/-- Ranges, their mappings and their data, row by row. -/
theorem exists_rows {s : Space} {access : Access} {ranges : List Range} {ids : List MappingId} {datas : List Bytes}
    (hn : List.Forall₂ (s.Names access) ranges ids)
    (hd : List.Forall₂ (fun range data => data.length = range.len) ranges datas) :
    ∃ rows : List Row, ranges = rows.map Row.range ∧ ids = rows.map Row.handle ∧ datas = rows.map Row.data ∧
      ∀ row ∈ rows, s.Names access row.range row.handle ∧ row.data.length = row.range.len := by
  induction hn generalizing datas with
  | nil =>
    cases hd
    exact ⟨[], rfl, rfl, rfl, fun _ hm => (nomatch hm)⟩
  | @cons range id ranges ids hname _ ih =>
    cases hd with
    | @cons _ data _ datas hlen hd =>
      obtain ⟨rows, rfl, rfl, rfl, hrows⟩ := ih hd
      exact ⟨⟨range, id, data⟩ :: rows, rfl, rfl, rfl, List.forall_mem_cons.2 ⟨⟨hname, hlen⟩, hrows⟩⟩

end Row

namespace Ledger

variable {l : Ledger} {space : SpaceId} {a : Recorder} {ids : List MappingId} {stores : List Store} {reach : Nat}

/-- Writes through references one after the other, each from the start of its mapping, up to the first
refusal. -/
def writeEach (l : Ledger) : List (LocalRef × Bytes) → Except Fault Unit × Ledger
  | [] => (.ok (), l)
  | (ref, new) :: rest =>
    match l.write ref 0 new with
    | (.error fault, l) => (.error fault, l)
    | (.ok _, l) => l.writeEach rest

theorem writeEach_wrote (ha : l.spaces[space]? = some a) (h : a.space.Current ids stores)
    (hp : a.space.Placed reach) (writes : List (LocalRef × Bytes))
    (haccepts : ∀ write ∈ writes, write.1.space = space ∧ a.space.Accepts write.1.mapping write.2)
    (hapart : writes.Pairwise fun write later => a.space.Apart write.1.mapping later.1.mapping) :
    ∃ s' stores', l.writeEach writes = (.ok (), l.updateSpace space fun _ => { a with space := s' }) ∧
      s'.Current ids stores' ∧ a.space.Wrote writes s' := by
  induction writes generalizing l a stores with
  | nil =>
    refine ⟨a.space, stores, ?_, h, .refl _, rfl, fun _ hm => (nomatch hm), fun _ _ _ => rfl⟩
    rw [updateSpace_self ha, writeEach]
  | cons write rest ih =>
    obtain ⟨ref, new⟩ := write
    obtain ⟨⟨rfl, mapping, hm, hl, hwritable, hlen⟩, haccepts⟩ := List.forall_mem_cons.1 haccepts
    obtain ⟨hfirst, hapart⟩ := List.pairwise_cons.1 hapart
    obtain ⟨s', hw⟩ : ∃ s', a.space.write ref.mapping 0 new = .ok s' := h.exists_write hp hm hl hwritable
      (by rw [Nat.zero_add]; exact Nat.le_of_eq hlen)
    obtain ⟨hmappings, -⟩ := Space.write_keeps hw
    have hhome := Space.write_sameHome hw
    have hwrite : l.write ref 0 new = (.ok (), l.updateSpace ref.space fun _ => { a with space := s' }) := by
      rw [write_eq ha, hw]
    have ha' : (l.updateSpace ref.space fun _ => { a with space := s' }).spaces[ref.space]? =
        some { a with space := s' } := spaces_updateSpace ha _
    have hsame : ∀ id other, Space.Apart s' id other ↔ a.space.Apart id other := fun id other => by
      simp only [Space.Apart, hmappings]
    have halive : ∀ id, Space.Alive s' id ↔ a.space.Alive id := fun id => by simp only [Space.Alive, hmappings]
    obtain ⟨t, stores', hrest, hcurrent, hwrote⟩ := ih ha' (h.write hp hw) (hp.of_sameHome hhome)
      (by simpa only [Space.Accepts, hmappings] using haccepts) (by simpa only [hsame] using hapart)
    refine ⟨t, stores', ?_, hcurrent, hhome.trans hwrote.home, hwrote.mappings.trans hmappings, ?_, ?_⟩
    · simp only [writeEach, hwrite, hrest, updateSpace_twice]
    · refine List.forall_mem_cons.2 ⟨?_, hwrote.reads⟩
      -- what is written later lies apart from what this mapping reads
      have hkept := hwrote.apart ref.mapping ((halive _).2 ⟨mapping, hm, hl⟩)
        fun later hlater => (hsame _ _).2 (hfirst later hlater).symm
      exact hkept.trans (h.read_written hp hw hm hl hlen)
    · intro id hid hall
      obtain ⟨hone, hall⟩ := List.forall_mem_cons.1 hall
      have hkept := hwrote.apart id ((halive id).2 hid) fun later hlater => (hsame _ _).2 (hall later hlater)
      exact hkept.trans (h.read_apart hp hw hm hlen hid hone)

/-- All references are good, so that committing them writes what each of them shows. -/
theorem commitAll_all (ha : l.spaces[space]? = some a) (h : a.space.Current ids stores)
    (hp : a.space.Placed reach) {handles : List MappingId} (hlive : ∀ id ∈ handles, a.space.Alive id) :
    ∃ images s', l.commitAll space (handles.map fun id => ⟨space, id⟩) =
        (.ok (), l.updateSpace space fun _ => { a with space := s' }) ∧
      List.Forall₂ a.space.Shows handles images ∧ a.space.Writes images s' := by
  have hids : (handles.map fun id => (⟨space, id⟩ : LocalRef)).map LocalRef.mapping = handles := by
    rw [List.map_map]
    exact List.map_id handles
  obtain ⟨hanswer, images, s', hall, hwrites, hledger⟩ := commitAll_commits ha h hp
    (handles.map fun id => ⟨space, id⟩) (by simpa using fun id hid => (hlive id hid).lt)
  have hnone := (Space.firstDead_eq_none fun id hid => (hlive id hid).lt).2 hlive
  rw [hids] at hanswer hall
  simp only [Space.ending, hnone] at hanswer
  rw [Space.livePrefix_of_alive hlive] at hall
  exact ⟨images, s', Prod.ext hanswer hledger, hall, hwrites⟩

/-- Data is written through references and then committed, and home memory has it in the ranges, and
nowhere else. -/
def Scatters (l : Ledger) (site : Site) (refs : List LocalRef) (writes : List (LocalRef × Bytes))
    (ranges : List Range) (datas : List Bytes) (f : FlatMemory) : Prop :=
  ∃ l' l'' a, l.writeEach writes = (.ok (), l') ∧ l'.perform (some site) (.commitAll refs) = (.ok (), l'') ∧
    l''.spaces[site.space]? = some a ∧ f.Scattered ranges datas a.space.flat

/-- Rows that are mapped for writing, written in any order and committed. -/
theorem scatters_of_rows {site : Site} {access : Access} {writes : List (LocalRef × Bytes)} {rows : List Row}
    (ha : l.spaces[site.space]? = some a) (h : a.space.Current ids stores) (hp : a.space.Placed reach)
    (hw : access.isWritable = true)
    (hrows : ∀ row ∈ rows, a.space.Names access row.range row.handle ∧ row.data.length = row.range.len)
    (hd : (rows.map Row.range).Pairwise Range.Disjoint)
    (horder : writes.Perm (rows.map fun row => (row.ref site.space, row.data))) :
    l.Scatters site (rows.map (Row.ref site.space)) writes (rows.map Row.range) (rows.map Row.data) a.space.flat := by
  have hmem : ∀ write ∈ writes, ∃ row ∈ rows, write = (row.ref site.space, row.data) := fun write hm => by
    obtain ⟨row, hrow, rfl⟩ := List.mem_map.1 (horder.mem_iff.1 hm)
    exact ⟨row, hrow, rfl⟩
  have haccepts : ∀ write ∈ writes, write.1.space = site.space ∧ a.space.Accepts write.1.mapping write.2 := by
    intro write hm
    obtain ⟨row, hrow, rfl⟩ := hmem write hm
    obtain ⟨⟨region, hmapping⟩, hlen⟩ := hrows row hrow
    exact ⟨rfl, _, hmapping, rfl, hw, hlen⟩
  -- that the ranges are disjoint does not depend on the order of the writes
  have hapart : writes.Pairwise fun write later => a.space.Apart write.1.mapping later.1.mapping := by
    refine (horder.pairwise_iff fun h => h.symm).2 ?_
    rw [List.pairwise_map] at hd ⊢
    refine hd.imp_of_mem fun {row later} hrow hlater hdisjoint mapping seen hm hs => ?_
    obtain ⟨⟨_, hmapping⟩, -⟩ := hrows row hrow
    obtain ⟨⟨_, hseen⟩, -⟩ := hrows later hlater
    cases hm.symm.trans hmapping
    cases hs.symm.trans hseen
    exact hdisjoint
  obtain ⟨s', stores', hwrite, hcurrent, hwrote⟩ := writeEach_wrote ha h hp writes haccepts hapart
  have ha' : (l.updateSpace site.space fun _ => { a with space := s' }).spaces[site.space]? =
      some { a with space := s' } := spaces_updateSpace ha _
  have hlive : ∀ id ∈ rows.map Row.handle, Space.Alive s' id := by
    refine List.forall_mem_map.2 fun row hrow => ?_
    obtain ⟨⟨region, hmapping⟩, -⟩ := hrows row hrow
    exact ⟨_, hwrote.mappings ▸ hmapping, rfl⟩
  obtain ⟨images, t, hcommit, hshows, hwrites⟩ := commitAll_all ha' hcurrent (hp.of_sameHome hwrote.home) hlive
  have himages : images = rows.map Row.image := by
    refine List.right_unique_forall₂' (fun _ _ _ hi hi' => hi.unique hi') hshows ?_
    rw [List.forall₂_map_left_iff, List.forall₂_map_right_iff, List.forall₂_same]
    intro row hrow
    obtain ⟨⟨region, hmapping⟩, hlen⟩ := hrows row hrow
    exact ⟨⟨row.range.start, row.range.len, access, region, true⟩, hwrote.mappings ▸ hmapping, rfl,
      hwrote.reads (row.ref site.space, row.data) (horder.mem_iff.2 (List.mem_map_of_mem hrow)), hlen⟩
  have hlens : List.Forall₂ (fun range data => data.length = range.len) (rows.map Row.range) (rows.map Row.data) := by
    rw [List.forall₂_map_left_iff, List.forall₂_map_right_iff, List.forall₂_same]
    exact fun row hrow => (hrows row hrow).2
  have hrefs : rows.map (Row.ref site.space) = (rows.map Row.handle).map fun id => ⟨site.space, id⟩ := by
    rw [List.map_map]
    rfl
  refine ⟨_, _, { a with space := t }, hwrite, (congrArg _ hrefs).trans hcommit, ?_, ?_⟩
  · rw [updateSpace_twice]
    exact spaces_updateSpace ha _
  · have hflat : t.flat = a.space.flat.overwriteAll images :=
      hwrites.flat.trans (congrArg (·.overwriteAll images) (Space.flat_of_sameHome hwrote.home))
    have hscattered := a.space.flat.overwriteAll_scattered hlens hd
    rw [List.zipWith_map, List.zipWith_self] at hscattered
    rw [hflat, himages]
    exact hscattered

end Ledger

namespace Client

end Client

end TaskSpace
