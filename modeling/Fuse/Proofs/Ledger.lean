-- The ledger of requests: what waits for an answer, and who holds it. As long as no
-- two messages have one number, the map of pending requests tells exactly which
-- requests are still held, and every number has had, or will have, as many answers
-- as it is due.
import Mathlib.Data.List.Nodup
import Fuse.Proofs.Growth
import Fuse.Proofs.KeyedList

namespace Fuse.Hub

/-- The answers that a number has had, and the one that it still waits for. -/
def tally (h : Hub) (unique : UInt64) : Nat :=
  h.queue.countP (fun f => decide (f.unique = unique)) +
    if (h.pending.get? unique).isSome then 1 else 0

theorem tally_congr {h h' : Hub} (hq : h'.queue = h.queue) (hp : h'.pending = h.pending)
    (unique : UInt64) : h'.tally unique = h.tally unique := by
  unfold tally
  rw [hq, hp]

theorem Alike.tally {h h' : Hub} (a : Alike h h') (unique : UInt64) :
    h'.tally unique = h.tally unique := tally_congr a.queue a.pending unique

theorem tally_record_sent (h : Hub) (f : Frame) (unique : UInt64) :
    (h.record (.sent f)).tally unique = h.tally unique + if f.unique = unique then 1 else 0 := by
  unfold tally
  rw [queue_record]
  show (h.queue ++ [f]).countP _ + _ = _
  rw [List.countP_append, List.countP_singleton]
  simp only [decide_eq_true_eq]
  exact Nat.add_right_comm _ _ _

theorem tally_interrupt (h : Hub) (i : Nat) (unique : UInt64) :
    (h.interrupt i).tally unique = h.tally unique := (alike_interrupt h i).tally unique

/-! ## The map of pending requests -/

section

variable {h : Hub} (header : Kernel.InHeader) (op : Operation)

theorem pending_enrol (h : Hub) : (h.enrol header op).1.pending =
    if op.kind.expectsReply then h.pending.insert header.unique h.slots.length
    else h.pending := rfl

theorem sorted_pending_enrol (hs : KeyedList.Sorted h.pending) :
    KeyedList.Sorted (h.enrol header op).1.pending := by
  rw [pending_enrol]
  split
  · exact KeyedList.sorted_insert _ _ hs
  · exact hs

theorem pending_enrol_self
    (hn : h.pending.get? header.unique = none) :
    (h.enrol header op).1.pending.get? header.unique =
      if op.kind.expectsReply then some h.slots.length else none := by
  rw [pending_enrol]
  split
  · exact KeyedList.get?_insert_self _ _ _
  · exact hn

theorem pending_enrol_of_ne (h : Hub) {unique : UInt64} (hne : unique ≠ header.unique) :
    (h.enrol header op).1.pending.get? unique = h.pending.get? unique := by
  rw [pending_enrol]
  split
  · exact KeyedList.get?_insert_of_ne _ _ hne
  · rfl

theorem mem_pending_enrol {p : UInt64 × Nat} (hp : p ∈ (h.enrol header op).1.pending) :
    p ∈ h.pending ∨ op.kind.expectsReply = true ∧ p = (header.unique, h.slots.length) := by
  rw [pending_enrol] at hp
  split at hp
  · rename_i hk
    rcases KeyedList.mem_of_mem_insert hp with hp | hp
    · exact Or.inr ⟨hk, hp⟩
    · exact Or.inl hp
  · exact Or.inl hp

end

/-- The map of pending requests agrees with the requests that someone holds. All of
them came with numbers that were received. -/
structure Ledger (received : List UInt64) (held : List Request) (h : Hub) : Prop where
  sorted : KeyedList.Sorted h.pending
  apart : (held.map (·.handle)).Nodup
  waiting : ∀ r ∈ held, ∃ s, h.slots[r.handle]? = some s ∧ s.unique = r.unique ∧
    s.progress = .pending
  tracked : ∀ r ∈ held,
    h.pending.get? r.unique = if r.kind.expectsReply then some r.handle else none
  owed : ∀ unique handle, h.pending.get? unique = some handle →
    ∃ r ∈ held, r.kind.expectsReply = true ∧ r.unique = unique ∧ r.handle = handle
  received : ∀ r ∈ held, r.unique ∈ received

namespace Ledger

variable {received : List UInt64} {held held' : List Request} {h h' : Hub} {r : Request}

/-! ## What does not matter -/

theorem congr (l : Ledger received held h) (hs : h'.slots = h.slots)
    (hp : h'.pending = h.pending) : Ledger received held h' :=
  ⟨hp ▸ l.sorted, l.apart, hs ▸ l.waiting, hp ▸ l.tracked, hp ▸ l.owed, l.received⟩

theorem alike (l : Ledger received held h) (a : Alike h h') : Ledger received held h' :=
  l.congr a.slots a.pending

theorem perm (l : Ledger received held h) (hp : held'.Perm held) : Ledger received held' h := by
  refine ⟨l.sorted, ((hp.map _).nodup_iff).mpr l.apart, fun r hr => l.waiting r (hp.mem_iff.mp hr),
    fun r hr => l.tracked r (hp.mem_iff.mp hr), ?_, fun r hr => l.received r (hp.mem_iff.mp hr)⟩
  intro unique handle hg
  obtain ⟨r, hr, hrest⟩ := l.owed unique handle hg
  exact ⟨r, hp.mem_iff.mpr hr, hrest⟩

theorem more (l : Ledger received held h) (unique : UInt64) :
    Ledger (received ++ [unique]) held h :=
  ⟨l.sorted, l.apart, l.waiting, l.tracked, l.owed,
    fun r hr => List.mem_append_left _ (l.received r hr)⟩

theorem pending (l : Ledger received (r :: held) h) : h.progress r = .pending := by
  obtain ⟨s, hs, -, hp⟩ := l.waiting r List.mem_cons_self
  unfold progress slot?
  rw [hs]
  exact hp

theorem handle_ne (l : Ledger received (r :: held) h) {r' : Request} (hr : r' ∈ held) :
    r'.handle ≠ r.handle := by
  intro he
  have hn : r.handle ∉ held.map (·.handle) := (List.nodup_cons.mp l.apart).1
  rw [← he] at hn
  exact hn (List.mem_map_of_mem hr)

/-! ## A request is let go -/

/-- When a request is answered, it leaves the ledger, and nothing else changes
there. -/
theorem release (l : Ledger received (r :: held) h) :
    Ledger received held ((h.markAnswered r).untrack r.unique) := by
  have htr := l.tracked r List.mem_cons_self
  refine ⟨KeyedList.sorted_erase _ l.sorted, (List.nodup_cons.mp l.apart).2, ?_, ?_, ?_,
    fun r' hr => l.received r' (List.mem_cons_of_mem _ hr)⟩
  · intro r' hr
    obtain ⟨s, hs, hrest⟩ := l.waiting r' (List.mem_cons_of_mem _ hr)
    exact ⟨s, (updateSlot_of_ne h (l.handle_ne hr) _).trans hs, hrest⟩
  · intro r' hr
    have htr' := l.tracked r' (List.mem_cons_of_mem _ hr)
    show (h.pending.erase r.unique).get? r'.unique = _
    by_cases hu : r'.unique = r.unique
    · rw [hu, KeyedList.get?_erase_self]
      rw [hu, htr] at htr'
      split at htr'
      · split at htr'
        · exact absurd (Option.some.inj htr').symm (l.handle_ne hr)
        · cases htr'
      · exact htr'
    · rw [KeyedList.get?_erase_of_ne _ hu, htr']
  · intro unique handle hg
    replace hg : (h.pending.erase r.unique).get? unique = some handle := hg
    have hu : unique ≠ r.unique := by
      intro hu
      rw [hu, KeyedList.get?_erase_self] at hg
      cases hg
    rw [KeyedList.get?_erase_of_ne _ hu] at hg
    obtain ⟨r', hr, hrest⟩ := l.owed unique handle hg
    rcases List.mem_cons.mp hr with rfl | hr
    · exact absurd hrest.2.1.symm hu
    · exact ⟨r', hr, hrest⟩

/-- Whatever is done with a request that is held, its number has had its answer. -/
theorem answer (l : Ledger received (r :: held) h) (ho : h.queueOpen = true)
    (hr : h.reachable = true) (profile : Profile) (a : Answer) :
    Ledger received held (h.answer profile r a).1 ∧
      ∀ unique, (h.answer profile r a).1.tally unique = h.tally unique := by
  have htr := l.tracked r List.mem_cons_self
  rcases answer_cases l.pending ho hr profile a with
    ⟨hk, reply, f, -, -, hu, ha⟩ | ⟨hk, ha⟩
  · refine ⟨l.release.congr ha.slots ha.pending, ?_⟩
    intro unique
    rw [ha.tally, tally_record_sent, hu]
    unfold tally
    show h.queue.countP _ + (if ((h.pending.erase r.unique).get? unique).isSome then 1 else 0) +
      _ = _
    by_cases he : unique = r.unique
    · rw [he, KeyedList.get?_erase_self, htr, hk]
      simp
    · rw [KeyedList.get?_erase_of_ne _ he]
      simp [Ne.symm he]
  · rw [hk] at htr
    have hsame : (h.markAnswered r).untrack r.unique = h.markAnswered r := by
      have he := KeyedList.erase_of_get?_none htr
      unfold untrack markAnswered updateSlot
      dsimp only
      rw [he]
    have hmarked : Alike (h.markAnswered r) (h.answer profile r a).1 := by
      rcases ha with ha | ha
      · exact ha
      · rwa [hsame] at ha
    exact ⟨(hsame ▸ l.release).alike hmarked, hmarked.tally⟩

/-! ## A request comes -/

/-- A new request enters the ledger. Nobody may hold its number yet, unless both
requests only forget. -/
theorem enrol (l : Ledger received held h) {header : Kernel.InHeader} {op : Operation}
    (hu : header.unique ∈ received) (hn : h.pending.get? header.unique = none)
    (hf : op.kind.expectsReply = true → ∀ r ∈ held, r.unique ≠ header.unique) :
    Ledger received ((h.enrol header op).2 :: held) (h.enrol header op).1 ∧
      ∀ unique, (h.enrol header op).1.tally unique =
        h.tally unique + if op.kind.expectsReply ∧ unique = header.unique then 1 else 0 := by
  have hold {r : Request} (hr : r ∈ held) : r.handle < h.slots.length := by
    obtain ⟨s, hs, -⟩ := l.waiting r hr
    exact (List.getElem?_eq_some_iff.mp hs).1
  have hself := pending_enrol_self header op hn
  refine ⟨⟨?_, ?_, ?_, ?_, ?_, ?_⟩, ?_⟩
  · exact sorted_pending_enrol header op l.sorted
  · refine List.nodup_cons.mpr ⟨?_, l.apart⟩
    intro hm
    obtain ⟨r, hr, he⟩ := List.mem_map.mp hm
    exact absurd he (Nat.ne_of_lt (hold hr))
  · intro r hr
    rcases List.mem_cons.mp hr with rfl | hr
    · exact ⟨{ unique := header.unique }, List.getElem?_concat_length, rfl, rfl⟩
    · obtain ⟨s, hs, hrest⟩ := l.waiting r hr
      exact ⟨s, (List.getElem?_append_left (hold hr)).trans hs, hrest⟩
  · intro r hr
    rcases List.mem_cons.mp hr with rfl | hr
    · exact hself
    · by_cases hr' : r.unique = header.unique
      · have htr := l.tracked r hr
        rw [hr'] at htr ⊢
        rw [hself]
        cases hk : op.kind.expectsReply with
        | true => exact absurd hr' (hf hk r hr)
        | false => exact hn.symm.trans htr
      · rw [pending_enrol_of_ne header op h hr', l.tracked r hr]
  · intro unique handle hg
    by_cases he : unique = header.unique
    · rw [he, hself] at hg
      split at hg
      · rename_i hk
        exact ⟨_, List.mem_cons_self, hk, he.symm, Option.some.inj hg⟩
      · cases hg
    · rw [pending_enrol_of_ne header op h he] at hg
      obtain ⟨r, hr, hrest⟩ := l.owed unique handle hg
      exact ⟨r, List.mem_cons_of_mem _ hr, hrest⟩
  · intro r hr
    rcases List.mem_cons.mp hr with rfl | hr
    · exact hu
    · exact l.received r hr
  · intro unique
    show h.queue.countP _ + _ = h.queue.countP _ + _ + _
    by_cases he : unique = header.unique
    · rw [he, hself, hn]
      cases op.kind.expectsReply <;> simp
    · rw [pending_enrol_of_ne header op h he]
      simp [he]

/-! ## Interrupts -/

theorem interrupt (l : Ledger received held h) (i : Nat) :
    Ledger received held (h.interrupt i) := by
  have hmarked : Ledger received held
      (h.updateSlot i fun s => { s with interrupted := true }) := by
    refine ⟨l.sorted, l.apart, ?_, l.tracked, l.owed, l.received⟩
    intro r hr
    obtain ⟨s, hs, hu, hp⟩ := l.waiting r hr
    by_cases he : r.handle = i
    · refine ⟨{ s with interrupted := true }, ?_, hu, hp⟩
      rw [he] at hs ⊢
      exact updateSlot_self hs _
    · exact ⟨s, (updateSlot_of_ne h he _).trans hs, hu, hp⟩
  exact hmarked.alike (alike_interrupt h i)

/-! ## The end -/

theorem slot_of_pending (l : Ledger received held h) {p : UInt64 × Nat} (hp : p ∈ h.pending) :
    ∃ s, h.slots[p.2]? = some s ∧ s.unique = p.1 ∧ s.progress = .pending := by
  obtain ⟨r, hr, -, hu, hh⟩ := l.owed p.1 p.2 ((KeyedList.get?_eq_some_iff l.sorted).mpr hp)
  obtain ⟨s, hs, hsu, hsp⟩ := l.waiting r hr
  exact ⟨s, hh ▸ hs, hsu.trans hu, hsp⟩

end Ledger

/-! ## Closing -/

/-- A pending request that is closed gets its answer, and no other request is
touched. -/
theorem closeOne_of_pending {h : Hub} (ho : h.queueOpen = true) {i : Nat} {s : Slot}
    (hs : h.slots[i]? = some s) (hp : s.progress = .pending) :
    (h.closeOne i).queue = h.queue ++ [.ofErrno s.unique .enotconn] ∧
      (h.closeOne i).slots[i]? = some { s with progress := .closed, interrupted := true } ∧
      ∀ j, j ≠ i → (h.closeOne i).slots[j]? = h.slots[j]? := by
  let closed := (h.updateSlot i fun s => { s with progress := .closed }).updateSlot i
    fun s => { s with interrupted := true }
  have hwake := alike_wake closed (.task i)
  have halike : Alike (closed.record (.sent (.ofErrno s.unique .enotconn))) (h.closeOne i) := by
    unfold closeOne slot?
    rw [hs]
    dsimp only
    rw [if_pos hp]
    exact hwake.sent ho _
  refine ⟨?_, ?_, ?_⟩
  · rw [halike.queue, queue_record]
    rfl
  · rw [halike.slots]
    exact updateSlot_self (updateSlot_self hs _) _
  · intro j hj
    rw [halike.slots]
    exact (updateSlot_of_ne _ hj _).trans (updateSlot_of_ne _ hj _)

theorem closeAll {ps : List (UInt64 × Nat)} {h : Hub} (ho : h.queueOpen = true)
    (hs : ∀ p ∈ ps, ∃ s, h.slots[p.2]? = some s ∧ s.unique = p.1 ∧ s.progress = .pending)
    (hn : (ps.map (·.2)).Nodup) :
    (ps.foldl (fun h p => h.closeOne p.2) h).queue =
      h.queue ++ ps.map fun p => .ofErrno p.1 .enotconn := by
  induction ps generalizing h with
  | nil => simp
  | cons p ps ih =>
    have hp : p.2 ∉ ps.map (·.2) := (List.nodup_cons.mp hn).1
    obtain ⟨s, hps, hu, hpending⟩ := hs p List.mem_cons_self
    obtain ⟨hq, -, hothers⟩ := closeOne_of_pending ho hps hpending
    rw [List.foldl_cons, ih, hq, hu, List.append_assoc]
    · rfl
    · exact (steady_closeOne h p.2).queueOpen.trans ho
    · intro q hq
      obtain ⟨t, ht, hrest⟩ := hs q (List.mem_cons_of_mem _ hq)
      have hne : q.2 ≠ p.2 := by
        intro he
        rw [← he] at hp
        exact hp (List.mem_map_of_mem hq)
      exact ⟨t, (hothers q.2 hne).trans ht, hrest⟩
    · exact (List.nodup_cons.mp hn).2

/-- The numbers that lead to waiting requests lead to different ones, in whatever order they
come out. -/
theorem handles_apart (drain : Drain) {h : Hub} (hsorted : KeyedList.Sorted h.pending)
    (hs : ∀ p ∈ h.pending, ∃ s, h.slots[p.2]? = some s ∧ s.unique = p.1 ∧ s.progress = .pending) :
    ((drain.order h.pending).map (·.2)).Nodup := by
  refine (drain.handles_order h.pending).nodup_iff.mpr ?_
  refine List.pairwise_map.mpr (hsorted.imp_of_mem ?_)
  intro p q hp hq hlt he
  obtain ⟨s, hps, hpu, -⟩ := hs p hp
  obtain ⟨t, hqt, hqu, -⟩ := hs q hq
  rw [he, hqt] at hps
  cases hps
  rw [← hpu, ← hqu] at hlt
  exact Std.Irrefl.irrefl (r := (· < ·)) _ hlt

/-- When the session closes, each number that leads to a waiting request gets one
answer, in the order in which the requests come out. -/
theorem queue_closePending (drain : Drain) {h : Hub} (hsorted : KeyedList.Sorted h.pending)
    (hs : ∀ p ∈ h.pending, ∃ s, h.slots[p.2]? = some s ∧ s.unique = p.1 ∧ s.progress = .pending)
    (ho : h.queueOpen = true) :
    (h.closePending drain).queue =
      h.queue ++ (drain.order h.pending).map fun p => .ofErrno p.1 .enotconn := by
  refine closeAll (h := { h with pending := [] }) ho ?_ (handles_apart drain hsorted hs)
  intro p hp
  exact hs p ((drain.mem_order h.pending).mp hp)

end Fuse.Hub
