-- Sessions side by side. Two sessions differ in something that they did long ago, and
-- perhaps in the log, in the channel and in when the writer has its turn. They may also
-- differ in which requests were interrupted, if nothing waits for that. Whatever happens
-- to both of them, they stay side by side.
import Fuse.Proofs.Dispatch
import Fuse.Session.Comparison
import Fuse.Session.Interrupts

namespace Fuse

/-- Whose turn counts: nobody can tell when the writer has one, and a task does nothing
until its request is interrupted. -/
def Runner.counts (marks : Bool) : Runner → Bool
  | .task _ => marks
  | .writer => false

/-- What counts of a slot, where the marks of interrupts may count or not. -/
def Slot.seen (marks : Bool) (s : Slot) : Slot := { s with interrupted := marks && s.interrupted }

namespace Hub

/-! ## Hubs -/

/-- The first did some deeds and the second did some others, and since then both have
done the same. -/
structure Beside (marks : Bool) (p q : List Deed) (h h' : Hub) : Prop where
  state : h'.state = h.state
  connection : h'.connection = h.connection
  slots : h'.slots.map (Slot.seen marks) = h.slots.map (Slot.seen marks)
  pending : h'.pending = h.pending
  queueOpen : h'.queueOpen = h.queueOpen
  reachable : h'.reachable = h.reachable
  turns : h'.turns.filter (Runner.counts marks) = h.turns.filter (Runner.counts marks)
  acts : ∃ later, h.acts = p ++ later ∧ h'.acts = q ++ later

theorem acts_record (h : Hub) (d : Deed) :
    (h.record d).acts = h.acts ++ if d.isNote then [] else [d] := by
  cases hd : d.isNote <;> simp [acts, record, hd]

namespace Beside

variable {marks : Bool} {p q : List Deed} {h h' h'' : Hub}

theorem refl (h : Hub) : Beside marks [] [] h h :=
  ⟨rfl, rfl, rfl, rfl, rfl, rfl, rfl, h.acts, rfl, rfl⟩

theorem symm (b : Beside marks p q h h') : Beside marks q p h' h := by
  obtain ⟨later, hp, hq⟩ := b.acts
  exact ⟨b.state.symm, b.connection.symm, b.slots.symm, b.pending.symm, b.queueOpen.symm,
    b.reachable.symm, b.turns.symm, later, hq, hp⟩

/-- What the second does alone must not count. -/
theorem right (b : Beside marks p q h h') (c : Beside marks [] [] h' h'') :
    Beside marks p q h h'' := by
  obtain ⟨later, hp, hq⟩ := b.acts
  obtain ⟨all, hall, hall'⟩ := c.acts
  refine ⟨c.state.trans b.state, c.connection.trans b.connection, c.slots.trans b.slots,
    c.pending.trans b.pending, c.queueOpen.trans b.queueOpen, c.reachable.trans b.reachable,
    c.turns.trans b.turns, later, hp, ?_⟩
  rw [hall', ← hall, hq]

/-- What each does after the other. -/
theorem trans {r : List Deed} (b : Beside marks p q h h') (c : Beside marks q r h' h'') :
    Beside marks p r h h'' := by
  obtain ⟨later, hp, hq⟩ := b.acts
  obtain ⟨later', hq', hr⟩ := c.acts
  obtain rfl : later = later' := List.append_cancel_left (hq.symm.trans hq')
  exact ⟨c.state.trans b.state, c.connection.trans b.connection, c.slots.trans b.slots,
    c.pending.trans b.pending, c.queueOpen.trans b.queueOpen, c.reachable.trans b.reachable,
    c.turns.trans b.turns, later, hp, hr⟩

theorem minor (b : Beside marks p q h h') : h'.minor = h.minor := by
  unfold Hub.minor
  rw [b.connection]

theorem slots_eq (b : Beside true p q h h') : h'.slots = h.slots := by
  have hseen : Slot.seen true = id := rfl
  simpa [hseen] using b.slots

theorem slot (b : Beside marks p q h h') (i : Nat) :
    (h'.slots[i]?).map (Slot.seen marks) = (h.slots[i]?).map (Slot.seen marks) := by
  rw [← List.getElem?_map, ← List.getElem?_map, b.slots]

theorem length (b : Beside marks p q h h') : h'.slots.length = h.slots.length := by
  simpa using congrArg List.length b.slots

theorem progress (b : Beside marks p q h h') (r : Request) : h'.progress r = h.progress r := by
  have hslot := congrArg (Option.map Slot.progress) (b.slot r.handle)
  rw [Option.map_map, Option.map_map] at hslot
  exact congrArg (Option.getD · .closed) hslot

/-- Hubs that differ in nothing that counts stand side by side from now on. -/
theorem since (c : Beside marks [] [] h h') : Beside marks h.acts h.acts h h' := by
  obtain ⟨all, hall, hall'⟩ := c.acts
  refine ⟨c.state, c.connection, c.slots, c.pending, c.queueOpen, c.reachable, c.turns, [], ?_, ?_⟩
  · rw [List.append_nil]
  · rw [hall', ← hall, List.append_nil]

/-- What the second did since it stood where the first stands. -/
theorem acts_eq (b : Beside marks h.acts q h h') : h'.acts = q := by
  obtain ⟨later, hp, hq⟩ := b.acts
  have hnone : later = [] := List.append_cancel_left (hp.symm.trans (List.append_nil _).symm)
  rw [hq, hnone, List.append_nil]

/-! ### Small steps -/

theorem record (b : Beside marks p q h h') (d : Deed) :
    Beside marks p q (h.record d) (h'.record d) := by
  obtain ⟨later, hp, hq⟩ := b.acts
  refine ⟨b.state, b.connection, b.slots, b.pending, b.queueOpen, b.reachable, b.turns,
    later ++ if d.isNote then [] else [d], ?_, ?_⟩
  · rw [acts_record, hp, List.append_assoc]
  · rw [acts_record, hq, List.append_assoc]

theorem ofNote (h : Hub) (e : Event) : Beside marks [] [] h (h.note e) := by
  refine ⟨rfl, rfl, rfl, rfl, rfl, rfl, rfl, h.acts, rfl, ?_⟩
  rw [note, acts_record]
  simp [Deed.isNote]

theorem note (b : Beside marks p q h h') (e : Event) : Beside marks p q (h.note e) (h'.note e) :=
  b.record _

theorem enter (b : Beside marks p q h h') (state : State) :
    Beside marks p q (h.enter state) (h'.enter state) := by
  have hstate : Beside marks p q { h with state } { h' with state } :=
    ⟨rfl, b.connection, b.slots, b.pending, b.queueOpen, b.reachable, b.turns, b.acts⟩
  exact hstate.record _

theorem wake_eq (h : Hub) (r : Runner) : h.wake r = { h with turns := (h.wake r).turns } := by
  unfold Hub.wake
  split <;> rfl

/-- The writer's turn does not count, and a task that counts has one turn or none in
both. -/
theorem wake (b : Beside marks p q h h') (r : Runner) :
    Beside marks p q (h.wake r) (h'.wake r) := by
  have hturns : (h'.wake r).turns.filter (Runner.counts marks) =
      (h.wake r).turns.filter (Runner.counts marks) := by
    have hsame := b.turns
    unfold Hub.wake
    cases hr : r.counts marks with
    | false => split <;> split <;> simp [hr, hsame]
    | true =>
      have hmem : r ∈ h'.turns ↔ r ∈ h.turns := by
        have hfilter (turns : List Runner) :
            r ∈ turns ↔ r ∈ turns.filter (Runner.counts marks) := by simp [hr]
        rw [hfilter h'.turns, hfilter h.turns, hsame]
      by_cases hw : r ∈ h.turns
      · simp [hw, hmem.mpr hw, hsame]
      · simp [hw, mt hmem.mp hw, hsame]
  rw [wake_eq h, wake_eq h']
  exact ⟨b.state, b.connection, b.slots, b.pending, b.queueOpen, b.reachable, hturns, b.acts⟩

/-- Only the second sends a frame. -/
theorem sent (c : Beside marks [] [] h h') (ho : h'.queueOpen = true) (f : Frame) :
    Beside marks h.acts (h.acts ++ [.sent f]) h (h'.send f) := by
  have hsend : h'.send f = (h'.record (.sent f)).wake .writer := by
    unfold Hub.send
    rw [if_pos ho]
  have hturns : ((h'.record (.sent f)).wake .writer).turns.filter (Runner.counts marks) =
      h'.turns.filter (Runner.counts marks) := by
    unfold Hub.wake Hub.record
    by_cases hw : Runner.writer ∈ h'.turns <;> simp [hw, Runner.counts]
  have hrest : (h'.send f).acts = h'.acts ++ [.sent f] := by
    have hacts := acts_record h' (.sent f)
    rw [hsend]
    unfold Hub.wake
    split <;> exact hacts
  obtain ⟨all, hall, hall'⟩ := c.acts
  have hsame := steady_send h' f
  refine ⟨hsame.state.trans c.state, hsame.connection.trans c.connection, ?_,
    (send_pending h' f).trans c.pending, hsame.queueOpen.trans c.queueOpen,
    hsame.reachable.trans c.reachable, ?_, [], ?_, ?_⟩
  · rw [send_slots, c.slots]
  · rw [hsend, hturns, c.turns]
  · rw [List.append_nil]
  · rw [hrest, hall', ← hall, List.append_nil]

theorem send (b : Beside marks p q h h') (f : Frame) : Beside marks p q (h.send f) (h'.send f) := by
  unfold Hub.send
  rw [b.queueOpen]
  split
  · exact (b.record _).wake _
  · exact b

/-- A change of a slot that does not depend on marks that do not count. -/
theorem updateSlot (b : Beside marks p q h h') (i : Nat) {f : Slot → Slot}
    (hf : ∀ s, (f s).seen marks = (f (s.seen marks)).seen marks) :
    Beside marks p q (h.updateSlot i f) (h'.updateSlot i f) := by
  have hmodify (slots : List Slot) : (slots.modify i f).map (Slot.seen marks) =
      (slots.map (Slot.seen marks)).modify i fun s => (f s).seen marks := by
    apply List.ext_getElem?
    intro j
    simp only [List.getElem?_map, List.getElem?_modify]
    cases slots[j]? with
    | none => rfl
    | some s => by_cases hij : i = j <;> simp [hij, hf s]
  refine ⟨b.state, b.connection, ?_, b.pending, b.queueOpen, b.reachable, b.turns, b.acts⟩
  show (h'.slots.modify i f).map _ = (h.slots.modify i f).map _
  rw [hmodify, hmodify, b.slots]

theorem untrack (b : Beside marks p q h h') (unique : UInt64) :
    Beside marks p q (h.untrack unique) (h'.untrack unique) :=
  ⟨b.state, b.connection, b.slots, congrArg (·.erase unique) b.pending, b.queueOpen,
    b.reachable, b.turns, b.acts⟩

/-! ### Answers -/

theorem deliver (b : Beside marks p q h h') (r : Request) (reply : Reply) :
    Beside marks p q (h.deliver r reply) (h'.deliver r reply) := by
  have huntrack := b.untrack r.unique
  unfold Hub.deliver
  rw [b.reachable]
  split
  · dsimp only
    rw [huntrack.minor]
    split
    · exact huntrack.send _
    · exact huntrack
  · exact b

theorem markAnswered (b : Beside marks p q h h') (r : Request) :
    Beside marks p q (h.markAnswered r) (h'.markAnswered r) :=
  b.updateSlot _ fun s => by simp [Slot.seen]

theorem abandon (b : Beside marks p q h h') (r : Request) :
    Beside marks p q (h.abandon r) (h'.abandon r) := by
  unfold Hub.abandon
  rw [b.progress]
  split
  · dsimp only
    split
    · exact ((b.markAnswered r).note _).deliver r _
    · exact b.markAnswered r
  · exact b

theorem settle (profile : Profile) (b : Beside marks p q h h') (r : Request) (reply : Reply) :
    Beside marks p q (h.settle profile r reply).1 (h'.settle profile r reply).1 ∧
      (h'.settle profile r reply).2 = (h.settle profile r reply).2 := by
  unfold Hub.settle
  rw [b.progress]
  split
  · exact ⟨(b.markAnswered r).deliver r reply, rfl⟩
  · exact ⟨b, rfl⟩
  · exact ⟨b.note _, rfl⟩

theorem answer (profile : Profile) (b : Beside marks p q h h') (r : Request) (a : Answer) :
    Beside marks p q (h.answer profile r a).1 (h'.answer profile r a).1 ∧
      (h'.answer profile r a).2 = (h.answer profile r a).2 := by
  cases a with
  | drop => exact ⟨b.abandon r, rfl⟩
  | reply reply =>
    unfold Hub.answer complete
    dsimp only
    split
    · exact b.settle profile r reply
    · rename_i v _
      have hnoted := b.note (.violation r.unique r.kind v)
      cases profile with
      | dev => exact ⟨hnoted.abandon r, rfl⟩
      | release => exact hnoted.settle .release r r.substitute

/-! ### Requests -/

theorem enrol (b : Beside marks p q h h') (header : Kernel.InHeader) (op : Operation) :
    Beside marks p q (h.enrol header op).1 (h'.enrol header op).1 ∧
      (h'.enrol header op).2 = (h.enrol header op).2 := by
  unfold Hub.enrol
  rw [b.length, b.pending]
  have hslots (new : Slot) : (h'.slots ++ [new]).map (Slot.seen marks) =
      (h.slots ++ [new]).map (Slot.seen marks) := by
    rw [List.map_append, List.map_append, b.slots]
  exact ⟨⟨b.state, b.connection, hslots _, rfl, b.queueOpen, b.reachable, b.turns, b.acts⟩, rfl⟩

theorem interrupt (b : Beside marks p q h h') (handle : Nat) :
    Beside marks p q (h.interrupt handle) (h'.interrupt handle) :=
  (b.updateSlot _ fun _ => rfl).wake _

/-- Only the second interrupts a request, and that does not count. -/
theorem interrupted (c : Beside false p q h h') (handle : Nat) :
    Beside false p q h (h'.interrupt handle) := by
  have hseen : ((h'.slots.modify handle fun s => { s with interrupted := true }).map
      (Slot.seen false)) = h'.slots.map (Slot.seen false) := by
    apply List.ext_getElem?
    intro j
    simp only [List.getElem?_map, List.getElem?_modify]
    cases h'.slots[j]? with
    | none => rfl
    | some s => by_cases hij : handle = j <;> simp [hij, Slot.seen]
  have hnone (turns : List Runner) : turns.filter (Runner.counts false) = [] :=
    List.filter_eq_nil_iff.mpr fun r _ => by cases r <;> simp [Runner.counts]
  have hturns : (h'.interrupt handle).turns.filter (Runner.counts false) =
      h'.turns.filter (Runner.counts false) := by rw [hnone, hnone]
  unfold Hub.interrupt at hturns ⊢
  rw [wake_eq]
  exact ⟨c.state, c.connection, hseen.trans c.slots, c.pending, c.queueOpen, c.reachable,
    hturns.trans c.turns, c.acts⟩

theorem closeOne (b : Beside marks p q h h') (handle : Nat) :
    Beside marks p q (h.closeOne handle) (h'.closeOne handle) := by
  have hslot := b.slot handle
  unfold Hub.closeOne slot?
  cases hs : h.slots[handle]? with
  | none =>
    rw [hs, Option.map_none, Option.map_eq_none_iff] at hslot
    rw [hslot]
    exact b
  | some s =>
    rw [hs, Option.map_some, Option.map_eq_some_iff] at hslot
    obtain ⟨t, ht, hseen⟩ := hslot
    have hprogress : (t.seen marks).progress = (s.seen marks).progress := by rw [hseen]
    have hunique : (t.seen marks).unique = (s.seen marks).unique := by rw [hseen]
    replace hprogress : t.progress = s.progress := hprogress
    replace hunique : t.unique = s.unique := hunique
    rw [ht]
    dsimp only
    rw [hprogress, hunique]
    split
    · exact ((b.updateSlot _ fun s => by simp [Slot.seen]).interrupt handle).send _
    · exact b

/-- The same requests are pending in both, so they come out in one order. -/
theorem closePending (b : Beside marks p q h h') (drain : Drain) :
    Beside marks p q (h.closePending drain) (h'.closePending drain) := by
  have hempty : Beside marks p q { h with pending := [] } { h' with pending := [] } :=
    ⟨b.state, b.connection, b.slots, rfl, b.queueOpen, b.reachable, b.turns, b.acts⟩
  unfold Hub.closePending
  rw [b.pending]
  exact List.foldl_rel hempty fun p _ _ _ c => c.closeOne p.2

end Beside

end Hub

namespace Session

variable {σ : Type}

/-! ## Sessions -/

/-- Two sessions side by side. Their channels need not be the same. Nothing waits for an
interrupt, if interrupts do not count. -/
structure Beside (marks : Bool) (p q : List Deed) (s s' : Session σ) : Prop where
  hub : Hub.Beside marks p q s.hub s'.hub
  user : s'.user = s.user
  kept : s'.kept = s.kept
  tasks : s'.tasks = s.tasks
  handleHeld : s'.handleHeld = s.handleHeld
  result : s'.result = s.result
  waiting : marks = false → s.tasks = []

namespace Beside

variable {marks : Bool} {p q : List Deed} {s s' s'' : Session σ}

theorem refl {s : Session σ} (hw : marks = false → s.tasks = []) : Beside marks [] [] s s :=
  ⟨.refl _, rfl, rfl, rfl, rfl, rfl, hw⟩

theorem waiting' (b : Beside marks p q s s') (hm : marks = false) : s'.tasks = [] :=
  b.tasks.trans (b.waiting hm)

theorem symm (b : Beside marks p q s s') : Beside marks q p s' s :=
  ⟨b.hub.symm, b.user.symm, b.kept.symm, b.tasks.symm, b.handleHeld.symm, b.result.symm,
    b.waiting'⟩

theorem right (b : Beside marks p q s s') (c : Beside marks [] [] s' s'') :
    Beside marks p q s s'' :=
  ⟨b.hub.right c.hub, c.user.trans b.user, c.kept.trans b.kept, c.tasks.trans b.tasks,
    c.handleHeld.trans b.handleHeld, c.result.trans b.result, b.waiting⟩

theorem trans {r : List Deed} (b : Beside marks p q s s') (c : Beside marks q r s' s'') :
    Beside marks p r s s'' :=
  ⟨b.hub.trans c.hub, c.user.trans b.user, c.kept.trans b.kept, c.tasks.trans b.tasks,
    c.handleHeld.trans b.handleHeld, c.result.trans b.result, b.waiting⟩

theorem left (b : Beside marks p q s s') (c : Beside marks [] [] s s'') : Beside marks p q s'' s' :=
  (b.symm.right c).symm

/-- Whatever is done to the hubs alone. -/
theorem withHub (b : Beside marks p q s s') {h h' : Hub} (c : Hub.Beside marks p q h h') :
    Beside marks p q { s with hub := h } { s' with hub := h' } :=
  ⟨c, b.user, b.kept, b.tasks, b.handleHeld, b.result, b.waiting⟩

theorem record (b : Beside marks p q s s') (d : Deed) :
    Beside marks p q (s.record d) (s'.record d) :=
  b.withHub (b.hub.record d)

theorem note (b : Beside marks p q s s') (e : Event) : Beside marks p q (s.note e) (s'.note e) :=
  b.withHub (b.hub.note e)

theorem notes (b : Beside marks p q s s') (es : List Event) :
    Beside marks p q (es.foldl Session.note s) (es.foldl Session.note s') := by
  induction es generalizing s s' with
  | nil => exact b
  | cons e es ih => exact ih (b.note e)

theorem enter (b : Beside marks p q s s') (state : State) :
    Beside marks p q (s.enter state) (s'.enter state) := b.withHub (b.hub.enter state)

theorem sendErrno (b : Beside marks p q s s') (unique : UInt64) (e : Errno) :
    Beside marks p q (s.sendErrno unique e) (s'.sendErrno unique e) := b.withHub (b.hub.send _)

theorem ended (b : Beside marks p q s s') : s'.ended = s.ended := congrArg Option.isSome b.result

/-! ### Answers -/

theorem answer (b : Beside marks p q s s') (srv : Server σ) (r : Request) (a : Answer) :
    Beside marks p q (s.answer srv r a).1 (s'.answer srv r a).1 ∧
      (s'.answer srv r a).2 = (s.answer srv r a).2 := by
  obtain ⟨hhub, hpanic⟩ := b.hub.answer srv.profile r a
  exact ⟨b.withHub hhub, hpanic⟩

theorem answerKept (b : Beside marks p q s s') (srv : Server σ) (place : Nat) (a : Answer) :
    Beside marks p q (s.answerKept srv place a).1 (s'.answerKept srv place a).1 ∧
      (s'.answerKept srv place a).2 = (s.answerKept srv place a).2 := by
  unfold Session.answerKept kept?
  rw [b.kept]
  cases (s.kept[place]?).join with
  | none => exact ⟨b, rfl⟩
  | some r =>
    have hfreed : Beside marks p q { s with kept := s.kept.set place none }
        { s' with kept := s.kept.set place none } :=
      ⟨b.hub, b.user, rfl, b.tasks, b.handleHeld, b.result, b.waiting⟩
    obtain ⟨hanswer, hpanic⟩ := hfreed.answer srv r a
    exact ⟨hanswer, congrArg Completion.ofPanic? hpanic⟩

theorem answerAllKept (b : Beside marks p q s s') (srv : Server σ) (answers : List (Nat × Answer)) :
    Beside marks p q (s.answerAllKept srv answers).1 (s'.answerAllKept srv answers).1 ∧
      (s'.answerAllKept srv answers).2 = (s.answerAllKept srv answers).2 := by
  induction answers generalizing s s' with
  | nil => exact ⟨b, rfl⟩
  | cons entry rest ih =>
    obtain ⟨place, a⟩ := entry
    obtain ⟨hone, hc⟩ := b.answerKept srv place a
    obtain ⟨hrest, hcs⟩ := ih hone
    refine ⟨hrest, ?_⟩
    unfold Session.answerAllKept
    dsimp only
    rw [hc, hcs]

/-! ### Operations -/

theorem use (b : Beside marks p q s s') (srv : Server σ) (r : Request) {u : Use}
    (hu : marks = false → ∀ a, u ≠ .onInterrupt a) :
    Beside marks p q (s.use srv r u).1 (s'.use srv r u).1 ∧
      (s'.use srv r u).2 = (s.use srv r u).2 := by
  cases u with
  | answer a => exact b.answer srv r a
  | keep =>
    have hkept : s'.kept ++ [some r] = s.kept ++ [some r] := by rw [b.kept]
    exact ⟨⟨b.hub, b.user, hkept, b.tasks, b.handleHeld, b.result, b.waiting⟩, rfl⟩
  | onInterrupt a =>
    have htasks : s'.tasks ++ [⟨r, a⟩] = s.tasks ++ [⟨r, a⟩] := by rw [b.tasks]
    exact ⟨⟨b.hub.wake _, b.user, b.kept, htasks, b.handleHeld, b.result,
      fun hm => absurd rfl (hu hm a)⟩, rfl⟩

variable {srv : Server σ}

theorem dispatch (b : Beside marks p q s s') (hsrv : marks = false → srv.Heedless)
    (header : Kernel.InHeader) (op : Operation) :
    Beside marks p q (s.dispatch srv header op) (s'.dispatch srv header op) := by
  obtain ⟨henrol, hr⟩ := b.hub.enrol header op
  unfold Session.dispatch
  dsimp only
  rw [hr, b.user]
  generalize (s.hub.enrol header op).2 = r at *
  split
  · rename_i handler hres
    have hcalled : Beside marks p q
        ({ s with hub := (s.hub.enrol header op).1, user := (handler s.user r op).1 }.record
          (.called r op))
        ({ s' with hub := (s'.hub.enrol header op).1, user := (handler s.user r op).1 }.record
          (.called r op)) :=
      ⟨henrol.record _, rfl, b.kept, b.tasks, b.handleHeld, b.result, b.waiting⟩
    have hnotes := hcalled.notes (handler s.user r op).2.notes
    obtain ⟨huse, hpanic⟩ := hnotes.use srv r fun hm => hsrv hm _ handler hres s.user r op
    simp only [hpanic]
    split
    · exact huse.note _
    · exact huse
  · have henrolled : Beside marks p q { s with hub := (s.hub.enrol header op).1 }
        { s' with hub := (s'.hub.enrol header op).1, user := s.user } :=
      ⟨henrol, rfl, b.kept, b.tasks, b.handleHeld, b.result, b.waiting⟩
    exact (henrolled.answer srv r _).1

theorem dispatchForgets (b : Beside marks p q s s') (hsrv : marks = false → srv.Heedless)
    (header : Kernel.InHeader) (items : List Kernel.ForgetOne) :
    Beside marks p q
      (items.foldl (fun s i => s.dispatch srv header (.forget i.nodeid i.nlookup)) s)
      (items.foldl (fun s i => s.dispatch srv header (.forget i.nodeid i.nlookup)) s') := by
  induction items generalizing s s' with
  | nil => exact b
  | cons i items ih => exact ih (b.dispatch hsrv header _)

theorem interrupt (b : Beside marks p q s s') (target : UInt64) :
    Beside marks p q (s.interrupt target).1 (s'.interrupt target).1 ∧
      (s'.interrupt target).2 = (s.interrupt target).2 := by
  unfold Session.interrupt
  rw [b.hub.pending]
  split
  · exact ⟨b.withHub (b.hub.interrupt _), rfl⟩
  · exact ⟨b, rfl⟩

/-! ### Frames -/

theorem greet (b : Beside marks p q s s') (srv : Server σ) (config : Config) :
    Beside marks p q (s.greet srv config).1 (s'.greet srv config).1 ∧
      (s'.greet srv config).2 = (s.greet srv config).2 := by
  unfold Session.greet
  split
  · exact ⟨b, rfl⟩
  · rename_i handler _
    dsimp only
    rw [b.user, b.hub.state]
    have hgreeted : Beside marks p q
        ({ s with user := (handler s.user s.hub.state config).user }.record (.greeted config))
        ({ s' with user := (handler s.user s.hub.state config).user }.record (.greeted config)) :=
      ⟨b.hub.record _, rfl, b.kept, b.tasks, b.handleHeld, b.result, b.waiting⟩
    split
    · exact ⟨hgreeted, rfl⟩
    · exact ⟨hgreeted, rfl⟩
    · exact ⟨hgreeted.note _, rfl⟩

theorem handshake (b : Beside marks p q s s') (srv : Server σ) (unique : UInt64)
    (init : Kernel.InitIn) :
    Beside marks p q (s.handshake srv unique init).1 (s'.handshake srv unique init).1 ∧
      (s'.handshake srv unique init).2 = (s.handshake srv unique init).2 := by
  have hinit := b.enter .initializing
  unfold Session.handshake
  dsimp only
  split
  · exact ⟨(hinit.note _).sendErrno unique _, rfl⟩
  · split
    · exact ⟨(hinit.withHub (hinit.hub.send _)).enter .created, rfl⟩
    · obtain ⟨hgreet, hconfig⟩ :=
        hinit.greet srv (.ofInit init (min init.minor protocolMinor))
      generalize (s.enter .initializing).greet srv _ = g at *
      generalize (s'.enter .initializing).greet srv _ = g' at *
      obtain ⟨t, config⟩ := g
      obtain ⟨t', config'⟩ := g'
      cases hconfig
      cases config with
      | error e => exact ⟨(hgreet.note _).sendErrno unique _, rfl⟩
      | ok config =>
        dsimp only
        split
        · exact ⟨(hgreet.note _).sendErrno unique _, rfl⟩
        · rename_i connection _
          have hconnected : Hub.Beside marks p q { t.hub with connection := some connection }
              { t'.hub with connection := some connection } :=
            ⟨hgreet.hub.state, rfl, hgreet.hub.slots, hgreet.hub.pending, hgreet.hub.queueOpen,
              hgreet.hub.reachable, hgreet.hub.turns, hgreet.hub.acts⟩
          exact ⟨(hgreet.withHub (hconnected.send _)).enter .running, rfl⟩

theorem handleMessage (b : Beside marks p q s s') (hsrv : marks = false → srv.Heedless)
    (header : Kernel.InHeader) (m : Message) :
    Beside marks p q (s.handleMessage srv header m).1 (s'.handleMessage srv header m).1 ∧
      (s'.handleMessage srv header m).2 = (s.handleMessage srv header m).2 := by
  have hearly := (b.note (.requestBeforeInit header.unique header.opcode)).sendErrno
    header.unique .eio
  unfold Session.handleMessage Session.handleMessage.tooEarly
  dsimp only
  rw [b.hub.state]
  cases m with
  | init proposal =>
    dsimp only
    split
    · obtain ⟨hb, hfailed⟩ := b.handshake srv header.unique proposal
      exact ⟨hb, congrArg (Option.map Except.error) hfailed⟩
    · exact ⟨(b.note _).sendErrno _ _, rfl⟩
  | forget items =>
    dsimp only
    split
    · exact ⟨b.dispatchForgets hsrv header items, rfl⟩
    · exact ⟨b, rfl⟩
  | destroy =>
    dsimp only
    split
    · exact ⟨b, rfl⟩
    · exact ⟨hearly, rfl⟩
  | interrupt target =>
    dsimp only
    split
    · obtain ⟨hb, hfound⟩ := b.interrupt target
      generalize s.interrupt target = g at *
      generalize s'.interrupt target = g' at *
      obtain ⟨t, found⟩ := g
      obtain ⟨t', found'⟩ := g'
      cases hfound
      cases found with
      | true => exact ⟨hb, rfl⟩
      | false => exact ⟨hb.sendErrno _ _, rfl⟩
    · exact ⟨hearly, rfl⟩
  | operation op =>
    dsimp only
    split
    · exact ⟨b.dispatch hsrv header op, rfl⟩
    · exact ⟨hearly, rfl⟩
  | unsupported opcode =>
    dsimp only
    split
    · exact ⟨b.sendErrno _ _, rfl⟩
    · exact ⟨hearly, rfl⟩

theorem handleFrame (b : Beside marks p q s s') (hsrv : marks = false → srv.Heedless)
    (frame : Bytes) :
    Beside marks p q (s.handleFrame srv frame).1 (s'.handleFrame srv frame).1 ∧
      (s'.handleFrame srv frame).2 = (s.handleFrame srv frame).2 := by
  unfold Session.handleFrame
  rw [b.hub.minor]
  split
  · exact ⟨b.note _, rfl⟩
  · split
    · dsimp only
      split
      · exact ⟨b.note _, rfl⟩
      · exact ⟨(b.note _).sendErrno _ _, rfl⟩
    · exact b.handleMessage hsrv _ _

theorem receive (b : Beside marks p q s s') (hsrv : marks = false → srv.Heedless)
    (frames : List Bytes) :
    Beside marks p q (s.receive srv frames).1 (s'.receive srv frames).1 ∧
      (s'.receive srv frames).2 = (s.receive srv frames).2 := by
  induction frames generalizing s s' with
  | nil => exact ⟨b, rfl⟩
  | cons frame frames ih =>
    obtain ⟨hframe, hending⟩ := b.handleFrame hsrv frame
    unfold Session.receive
    generalize s.handleFrame srv frame = g at *
    generalize s'.handleFrame srv frame = g' at *
    obtain ⟨t, ending⟩ := g
    obtain ⟨t', ending'⟩ := g'
    cases hending
    cases ending with
    | none => exact ih hframe
    | some ending => exact ⟨hframe, rfl⟩

/-! ### The end -/

theorem farewell (b : Beside marks p q s s') (srv : Server σ) :
    Beside marks p q (s.farewell srv) (s'.farewell srv) := by
  unfold Session.farewell
  rw [b.hub.connection, b.user, b.hub.state]
  split
  · rename_i handler _ _
    let goodbye := handler s.user s.hub.state
    obtain ⟨hanswers, hcompletions⟩ :=
      (b.record .dismissed).answerAllKept srv goodbye.answers
    have htold : Beside marks p q
        { ((s.record .dismissed).answerAllKept srv goodbye.answers).1 with
          user := goodbye.user ((s.record .dismissed).answerAllKept srv goodbye.answers).2 }
        { ((s'.record .dismissed).answerAllKept srv goodbye.answers).1 with
          user := goodbye.user ((s'.record .dismissed).answerAllKept srv goodbye.answers).2 } :=
      ⟨hanswers.hub, congrArg goodbye.user hcompletions, hanswers.kept, hanswers.tasks,
        hanswers.handleHeld, hanswers.result, hanswers.waiting⟩
    dsimp only
    split
    · exact htold.note _
    · exact htold
  · exact b

theorem windDown (b : Beside marks p q s s') (srv : Server σ) (ending : Ending) :
    Beside marks p q (s.windDown srv ending) (s'.windDown srv ending) := by
  have hfarewell := (b.enter .destroying).farewell srv
  have hclose := hfarewell.hub.closePending srv.drain
  have hshut {h h' : Hub} (c : Hub.Beside marks p q h h') :
      Hub.Beside marks p q { h with queueOpen := false } { h' with queueOpen := false } :=
    ⟨c.state, c.connection, c.slots, c.pending, rfl, c.reachable, c.turns, c.acts⟩
  unfold Session.windDown
  dsimp only
  split
  · exact hfarewell.withHub (hshut (hclose.send _))
  · exact hfarewell.withHub (hshut hclose)

/-! ### Coming to rest -/

/-- A task goes on in both or in none: if interrupts do not count, there is no task. -/
theorem runTask (b : Beside marks p q s s') (srv : Server σ) (handle : Nat) :
    Beside marks p q (s.runTask srv handle) (s'.runTask srv handle) := by
  unfold Session.runTask
  rw [b.tasks]
  split
  · rename_i t ht
    have hm : marks = true := by
      cases marks with
      | true => rfl
      | false =>
        rw [b.waiting rfl] at ht
        cases ht
    subst hm
    have hinterrupted : s'.hub.isInterrupted t.request = s.hub.isInterrupted t.request := by
      unfold Hub.isInterrupted Hub.slot?
      rw [b.hub.slots_eq]
    rw [hinterrupted]
    split
    · have hended : Beside true p q
          { s with tasks := s.tasks.eraseP (·.request.handle == handle) }
          { s' with tasks := s.tasks.eraseP (·.request.handle == handle) } :=
        ⟨b.hub, b.user, b.kept, rfl, b.handleHeld, b.result, nofun⟩
      exact (hended.answer srv _ _).1
    · exact b
  · exact b

/-- Nobody but the kernel and the log can tell that frames were carried. -/
theorem ofFlush {s : Session σ} (hw : marks = false → s.tasks = []) :
    Beside marks [] [] s s.flush := by
  have hcarry (t : Session σ) (f : Frame) (ht : marks = false → t.tasks = []) :
      Beside marks [] [] t (t.carry f) := by
    unfold carry
    dsimp only
    split
    · exact ⟨.ofNote _ _, rfl, rfl, rfl, rfl, rfl, ht⟩
    · exact ⟨.refl _, rfl, rfl, rfl, rfl, rfl, ht⟩
  exact flush_keeps (motive := Beside marks [] [] s)
    (fun t f b => b.right (hcarry t f b.waiting')) (.refl hw)

theorem flush (b : Beside marks p q s s') : Beside marks p q s.flush s'.flush :=
  (b.right (.ofFlush b.waiting')).left (.ofFlush b.waiting)

theorem clearTurns (b : Beside marks p q s s') : Beside marks p q s.clearTurns s'.clearTurns :=
  b.withHub ⟨b.hub.state, b.hub.connection, b.hub.slots, b.hub.pending, b.hub.queueOpen,
    b.hub.reachable, rfl, b.hub.acts⟩

theorem takeTurns (b : Beside marks p q s s') (srv : Server σ) (rs : List Runner) :
    Beside marks p q (rs.foldl (takeTurn srv) s) (rs.foldl (takeTurn srv) s') := by
  induction rs generalizing s s' with
  | nil => exact b
  | cons r rs ih =>
    cases r with
    | writer => exact ih b.flush
    | task handle => exact ih (b.runTask srv handle)

/-- The turns that do not count may be left out. -/
theorem ofTurns (srv : Server σ) (rs : List Runner) {s : Session σ}
    (hw : marks = false → s.tasks = []) :
    Beside marks [] [] ((rs.filter (Runner.counts marks)).foldl (takeTurn srv) s)
      (rs.foldl (takeTurn srv) s) := by
  induction rs generalizing s with
  | nil => exact .refl hw
  | cons r rs ih =>
    cases r with
    | writer =>
      have hflush := Beside.ofFlush hw
      exact (hflush.takeTurns srv _).right (ih hflush.waiting')
    | task handle =>
      have htask := (Beside.refl hw).runTask srv handle
      cases marks with
      | true => exact ih htask.waiting
      | false =>
        have hidle : s.runTask srv handle = s := by
          unfold Session.runTask
          rw [hw rfl]
          rfl
        rw [List.foldl_cons, takeTurn, hidle]
        exact ih hw

theorem comeToRest (b : Beside marks p q s s') (srv : Server σ) :
    Beside marks p q (s.comeToRest srv) (s'.comeToRest srv) := by
  have hcleared := b.clearTurns
  have hturns : Beside marks p q (s.hub.turns.foldl (takeTurn srv) s.clearTurns)
      (s'.hub.turns.foldl (takeTurn srv) s'.clearTurns) := by
    have htasks := hcleared.takeTurns srv (s.hub.turns.filter (Runner.counts marks))
    have hright := Beside.ofTurns srv s'.hub.turns hcleared.waiting'
    rw [b.hub.turns] at hright
    exact (htasks.left (.ofTurns srv s.hub.turns hcleared.waiting)).right hright
  exact hturns.flush.clearTurns

/-- When it is nobody's turn, coming to rest changes nothing that counts. -/
theorem ofRest (srv : Server σ) {s : Session σ} (hw : marks = false → s.tasks = [])
    (ht : s.hub.turns = []) : Beside marks [] [] s (s.comeToRest srv) := by
  have hclear {t : Session σ} (htasks : marks = false → t.tasks = [])
      (h : t.hub.turns.filter (Runner.counts marks) = []) :
      Beside marks [] [] t t.clearTurns :=
    (Beside.refl htasks).withHub ⟨rfl, rfl, rfl, rfl, rfl, rfl, h.symm, t.hub.acts, rfl, rfl⟩
  have hfirst : Beside marks [] [] s s.clearTurns := hclear hw (by rw [ht]; rfl)
  have hflush := Beside.ofFlush hfirst.waiting'
  have hlast : Beside marks [] [] s.clearTurns.flush s.clearTurns.flush.clearTurns :=
    hclear hflush.waiting' hflush.hub.turns
  unfold Session.comeToRest
  rw [ht]
  exact (hfirst.right hflush).right hlast

theorem finish (b : Beside marks p q s s') (srv : Server σ) (ending : Ending) :
    Beside marks p q (s.finish srv ending) (s'.finish srv ending) := by
  have hend := ((b.windDown srv ending).comeToRest srv).enter .terminated
  exact ⟨⟨hend.hub.state, hend.hub.connection, hend.hub.slots, hend.hub.pending,
    hend.hub.queueOpen, hend.handleHeld, hend.hub.turns, hend.hub.acts⟩, hend.user, hend.kept,
    hend.tasks, hend.handleHeld, rfl, hend.waiting⟩

/-! ### Runs -/

theorem outside (b : Beside marks p q s s') (srv : Server σ) (input : Input) :
    Beside marks p q (s.outside srv input).1 (s'.outside srv input).1 ∧
      (s'.outside srv input).2 = (s.outside srv input).2 := by
  cases input with
  | answer place a =>
    obtain ⟨hanswer, hc⟩ := b.answerKept srv place a
    exact ⟨hanswer, congrArg some hc⟩
  | dropHandle =>
    have hreachable : (!s'.ended) = !s.ended := congrArg (!·) b.ended
    exact ⟨⟨⟨b.hub.state, b.hub.connection, b.hub.slots, b.hub.pending, b.hub.queueOpen,
      hreachable, b.hub.turns, b.hub.acts⟩, b.user, b.kept, b.tasks, rfl, b.result, b.waiting⟩,
      rfl⟩
  | _ => exact ⟨⟨b.hub, b.user, b.kept, b.tasks, b.handleHeld, b.result, b.waiting⟩, rfl⟩

theorem serve (b : Beside marks p q s s') (hsrv : marks = false → srv.Heedless)
    (input : Input) : Beside marks p q (s.serve srv input).1 (s'.serve srv input).1 ∧
      (s'.serve srv input).2 = (s.serve srv input).2 := by
  have hstream : s'.streamEnding = s.streamEnding := by
    unfold streamEnding
    rw [b.hub.state]
  cases input with
  | frames frames => exact b.receive hsrv frames
  | close => exact ⟨b, congrArg some hstream⟩
  | hangUp => exact ⟨b, congrArg some hstream⟩
  | shutdown =>
    refine ⟨b, ?_⟩
    unfold Session.serve
    rw [b.handleHeld]
  | _ => exact ⟨b, rfl⟩

/-- Sessions that stand side by side after they were served come to their end side by
side, if they do. -/
theorem progress_of (input input' : Input)
    (hserve : Beside marks p q (s.serve srv input).1 (s'.serve srv input').1)
    (hending : (s'.serve srv input').2 = (s.serve srv input).2) :
    Beside marks p q (s.progress srv input) (s'.progress srv input') := by
  unfold Session.progress
  generalize s.serve srv input = g at *
  generalize s'.serve srv input' = g' at *
  obtain ⟨t, ending⟩ := g
  obtain ⟨t', ending'⟩ := g'
  cases hending
  cases ending with
  | none => exact hserve
  | some ending => exact hserve.finish srv ending

theorem step_of (b : Beside marks p q s s') (hsrv : marks = false → srv.Heedless)
    (input : Input) : Beside marks p q (s.step srv input).1 (s'.step srv input).1 ∧
      (s'.step srv input).2 = (s.step srv input).2 := by
  obtain ⟨hout, hc⟩ := b.outside srv input
  obtain ⟨hserve, hending⟩ := hout.serve hsrv input
  refine ⟨?_, hc⟩
  unfold Session.step
  dsimp only
  rw [hout.ended]
  split
  · exact hout.comeToRest srv
  · exact (progress_of input input hserve hending).comeToRest srv

theorem step (b : Beside true p q s s') (srv : Server σ) (input : Input) :
    Beside true p q (s.step srv input).1 (s'.step srv input).1 ∧
      (s'.step srv input).2 = (s.step srv input).2 := b.step_of nofun input

theorem run (b : Beside true p q s s') (srv : Server σ) (inputs : List Input) :
    Beside true p q (s.run srv inputs) (s'.run srv inputs) := by
  induction inputs generalizing s s' with
  | nil => exact b
  | cons input inputs ih => exact ih (b.step srv input).1

end Beside

end Session

end Fuse
