import TaskSpace.Registry.Ledger

/-!
# The stack that parent links encode

A storage finds its holders by name, and from each one the holder below through its parent. When the
links follow the entries (`Storage.Linked`), walking them from the top gives every entry once.
-/

namespace TaskSpace.Storage

variable {s : Storage} {holder top : HolderId} {rest : List HolderId}

/-- The holders that have an entry, the last one registered first. -/
def stack (s : Storage) : List HolderId := s.entries.map Registration.holder

/-- From `top` on, the parent of each entry is the holder of the next, and the last has none. -/
def Links : (top : Option HolderId) → List Registration → Prop
  | top, [] => top = none
  | top, entry :: rest => top = some entry.holder ∧ Links entry.parent rest

structure Linked (s : Storage) : Prop where
  nodup : s.stack.Nodup
  links : Links s.current s.entries

theorem linked_fresh (worker : WorkerId) (space : SpaceId) : (fresh worker space).Linked :=
  ⟨.nil, rfl⟩

theorem Linked.congr (h : s.Linked) {s' : Storage} (hc : s'.current = s.current)
    (he : s'.entries = s.entries) : s'.Linked :=
  ⟨by unfold stack; rw [he]; exact h.nodup, by rw [hc, he]; exact h.links⟩

/-! ## Walking down -/

theorem entry?_of_mem {entries : List Registration}
    (hn : (entries.map Registration.holder).Nodup) {entry : Registration} (hm : entry ∈ entries) :
    (entries.find? fun old => old.holder = entry.holder) = some entry := by
  induction entries with
  | nil => cases hm
  | cons head tail ih =>
    rw [List.map_cons, List.nodup_cons] at hn
    rcases List.mem_cons.1 hm with rfl | hm
    · exact List.find?_cons_of_pos (by simp)
    · have hne : head.holder ≠ entry.holder := fun he =>
        hn.1 (List.mem_map.2 ⟨entry, hm, he.symm⟩)
      rw [List.find?_cons_of_neg (by simpa using hne)]
      exact ih hn.2 hm

/-- The walk from the holder on top of some last entries finds those entries. -/
theorem chain_of_links (hn : s.stack.Nodup) {entries : List Registration}
    (hs : ∀ entry ∈ entries, entry ∈ s.entries) {top : Option HolderId} (hl : Links top entries)
    {limit : Nat} (hlt : entries.length < limit) :
    s.chain limit top = entries.map Registration.holder := by
  induction entries generalizing top limit with
  | nil =>
    cases hl
    cases limit <;> rfl
  | cons entry below ih =>
    obtain ⟨rfl, hl⟩ := hl
    cases limit with
    | zero => cases hlt
    | succ limit =>
      have he := entry?_of_mem hn (hs entry List.mem_cons_self)
      simp only [chain, Storage.entry?, he, Option.bind_some, List.map_cons]
      rw [ih (fun old hm => hs old (List.mem_cons_of_mem _ hm)) hl (Nat.lt_of_succ_lt_succ hlt)]

theorem chain_congr {s' : Storage} (he : s'.entries = s.entries) (limit : Nat) (top : Option HolderId) :
    s'.chain limit top = s.chain limit top := by
  induction limit generalizing top with
  | zero => rfl
  | succ limit ih =>
    cases top with
    | none => rfl
    | some top => simp only [chain, Storage.entry?, he, ih]

theorem active_congr {s' : Storage} (hc : s'.current = s.current) (he : s'.entries = s.entries) :
    s'.active = s.active := by
  simp only [active, len, hc, he, chain_congr he]

theorem Linked.active_eq (h : s.Linked) : s.active = s.stack :=
  chain_of_links h.nodup (fun _ hm => hm) h.links (Nat.lt_succ_self _)

theorem Linked.current_eq (h : s.Linked) : s.current = s.stack.head? := by
  have hl := h.links
  unfold stack
  cases he : s.entries with
  | nil => rw [he] at hl; exact hl
  | cons entry below => rw [he] at hl; exact hl.1

theorem len_eq (s : Storage) : s.len = s.stack.length := (List.length_map _).symm

theorem contains_eq (s : Storage) (holder : HolderId) : s.contains holder = decide (holder ∈ s.stack) := by
  rw [Bool.eq_iff_iff, decide_eq_true_iff]
  unfold contains Storage.entry? stack
  rw [List.find?_isSome]
  simp

/-! ## Push and pop -/

theorem Linked.push (h : s.Linked) (hn : holder ∉ s.stack) :
    (s.push holder).Linked ∧ (s.push holder).stack = holder :: s.stack := by
  have hsame : (s.entries.filter fun entry => entry.holder ≠ holder) = s.entries := by
    refine List.filter_eq_self.2 fun entry hm => ?_
    simpa using fun he => hn (List.mem_map.2 ⟨entry, hm, he⟩)
  have hstack : (s.push holder).stack = holder :: s.stack := by
    simp only [stack, Storage.push, hsame, List.map_cons]
  refine ⟨⟨?_, ?_⟩, hstack⟩
  · rw [hstack]
    exact List.nodup_cons.2 ⟨hn, h.nodup⟩
  · simp only [Storage.push, hsame]
    exact ⟨rfl, h.links⟩

theorem Linked.pop_nil (h : s.Linked) (hs : s.stack = []) : s.pop = none := by
  have hc : s.current = none := by rw [h.current_eq, hs]; rfl
  simp only [pop, hc]
  rfl

theorem Linked.pop_cons (h : s.Linked) (hs : s.stack = top :: rest) :
    ∃ current entries, s.pop = some (top, { s with current, entries }) ∧
      Linked { s with current, entries } ∧ stack { s with current, entries } = rest := by
  have hl := h.links
  have hn := h.nodup
  unfold stack at hs hn
  cases he : s.entries with
  | nil => rw [he] at hs; cases hs
  | cons entry below =>
    rw [he] at hs hn hl
    cases hs
    obtain ⟨hc, hl⟩ := hl
    obtain ⟨hnot, hbelow⟩ := List.nodup_cons.1 hn
    -- no two entries have one holder, so only the top entry goes
    have hentry : Storage.entry? s entry.holder = some entry := by
      simp only [Storage.entry?, he]
      exact entry?_of_mem hn List.mem_cons_self
    have hfilter : (s.entries.filter fun old => old.holder ≠ entry.holder) = below := by
      rw [he, List.filter_cons_of_neg (by simp)]
      refine List.filter_eq_self.2 fun old hm => ?_
      simpa using fun ho => hnot (List.mem_map.2 ⟨old, hm, ho⟩)
    refine ⟨entry.parent, below, ?_, ⟨hbelow, hl⟩, rfl⟩
    simp only [pop, hc, Bind.bind, Option.bind, hentry, hfilter, pure]

end TaskSpace.Storage
