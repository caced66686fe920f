-- What never goes back. Of what was done nothing is undone, a request that was
-- answered or closed stays so, and a closed queue takes no more frames. Before the
-- end nothing comes closer to it, and most steps leave the session where it stands.
import Fuse.Proofs.Hub

namespace Fuse

namespace Hub

/-! ## One hub after another -/

/-- One slot may come after another in the life of a request. -/
structure SlotLater (s s' : Slot) : Prop where
  unique : s'.unique = s.unique
  progress : s.progress ≠ .pending → s'.progress = s.progress

/-- One hub may come after another in the life of a session. -/
structure Later (h h' : Hub) : Prop where
  deeds : h.deeds <+: h'.deeds
  slot : ∀ (i : Nat) (s : Slot), h.slots[i]? = some s →
    ∃ s', h'.slots[i]? = some s' ∧ SlotLater s s'
  closed : h.queueOpen = false → h'.queueOpen = false ∧ h'.queue = h.queue

/-- How often the file system was told about the end. -/
def dismissals (h : Hub) : Nat := h.deeds.count .dismissed

/-- One hub comes after another, and the end came no closer. -/
structure Onward (h h' : Hub) : Prop extends Later h h' where
  queueOpen : h'.queueOpen = h.queueOpen
  reachable : h'.reachable = h.reachable
  dismissals : h'.dismissals = h.dismissals

/-- One hub comes after another, and the session still stands where it stood. -/
structure Steady (h h' : Hub) : Prop extends Onward h h' where
  state : h'.state = h.state
  connection : h'.connection = h.connection

theorem SlotLater.refl (s : Slot) : SlotLater s s := ⟨rfl, fun _ => rfl⟩

theorem SlotLater.trans {a b c : Slot} (h₁ : SlotLater a b) (h₂ : SlotLater b c) :
    SlotLater a c := by
  refine ⟨h₂.unique.trans h₁.unique, ?_⟩
  intro hp
  have hb := h₁.progress hp
  rw [h₂.progress (hb ▸ hp), hb]

namespace Later

theorem refl (h : Hub) : Later h h :=
  ⟨List.prefix_refl _, fun _ s hs => ⟨s, hs, .refl s⟩, fun hc => ⟨hc, rfl⟩⟩

theorem trans {a b c : Hub} (h₁ : Later a b) (h₂ : Later b c) : Later a c := by
  refine ⟨h₁.deeds.trans h₂.deeds, ?_, ?_⟩
  · intro i s hs
    obtain ⟨s', hs', hl⟩ := h₁.slot i s hs
    obtain ⟨s'', hs'', hl'⟩ := h₂.slot i s' hs'
    exact ⟨s'', hs'', hl.trans hl'⟩
  · intro hc
    obtain ⟨hb, hq⟩ := h₁.closed hc
    obtain ⟨hb', hq'⟩ := h₂.closed hb
    exact ⟨hb', hq'.trans hq⟩

theorem queue {h h' : Hub} (l : Later h h') : h.queue <+: h'.queue := by
  rw [queue_eq, queue_eq]
  exact l.deeds.filterMap _

theorem calls {h h' : Hub} (l : Later h h') : h.calls <+: h'.calls := by
  rw [calls_eq, calls_eq]
  exact l.deeds.filterMap _

/-- A request that is no longer pending never is again. -/
theorem progress {h h' : Hub} (l : Later h h') {r : Request}
    (hs : r.handle < h.slots.length) (hp : h.progress r ≠ .pending) :
    h'.progress r ≠ .pending := by
  have hg := List.getElem?_eq_getElem hs
  obtain ⟨s', hs', hl⟩ := l.slot _ _ hg
  unfold Hub.progress slot? at hp ⊢
  rw [hg] at hp
  rw [hs']
  simp only [Option.map_some, Option.getD_some] at hp ⊢
  rw [hl.progress hp]
  exact hp

end Later

theorem Onward.refl (h : Hub) : Onward h h := ⟨.refl h, rfl, rfl, rfl⟩

theorem Onward.trans {a b c : Hub} (h₁ : Onward a b) (h₂ : Onward b c) : Onward a c :=
  ⟨h₁.toLater.trans h₂.toLater, h₂.queueOpen.trans h₁.queueOpen,
    h₂.reachable.trans h₁.reachable, h₂.dismissals.trans h₁.dismissals⟩

namespace Steady

theorem refl (h : Hub) : Steady h h := ⟨.refl h, rfl, rfl⟩

theorem trans {a b c : Hub} (h₁ : Steady a b) (h₂ : Steady b c) : Steady a c :=
  ⟨h₁.toOnward.trans h₂.toOnward, h₂.state.trans h₁.state, h₂.connection.trans h₁.connection⟩

theorem minor {h h' : Hub} (l : Steady h h') : h'.minor = h.minor := by
  unfold Hub.minor
  rw [l.connection]

end Steady

theorem Alike.steady {h h' : Hub} (a : Alike h h') : Steady h h' := by
  refine ⟨⟨⟨?_, ?_, ?_⟩, a.queueOpen, a.reachable, ?_⟩, a.state, a.connection⟩
  · exact a.deeds ▸ List.prefix_refl h.deeds
  · intro i s hs
    exact ⟨s, a.slots ▸ hs, .refl s⟩
  · intro hc
    exact ⟨a.queueOpen ▸ hc, a.queue⟩
  · unfold dismissals
    rw [a.deeds]

/-! ## Small steps -/

theorem dismissals_eq_count (h : Hub) : h.dismissals = h.journal.count .dismissed :=
  List.count_filter rfl

theorem dismissals_record (h : Hub) {d : Deed} (hd : d ≠ .dismissed) :
    (h.record d).dismissals = h.dismissals := by
  unfold dismissals
  rw [deeds_record]
  split
  · simp [hd]
  · simp

theorem later_record (h : Hub) {d : Deed} (hd : d.frame? = none) : Later h (h.record d) := by
  refine ⟨?_, fun _ s hs => ⟨s, hs, .refl s⟩, fun hc => ⟨hc, ?_⟩⟩
  · rw [deeds_record]
    exact List.prefix_append _ _
  · simp [queue_record, hd]

/-- As long as the queue is open, anything may be done next. -/
theorem later_record_of_open {h : Hub} (ho : h.queueOpen = true) (d : Deed) :
    Later h (h.record d) := by
  refine ⟨?_, fun _ s hs => ⟨s, hs, .refl s⟩, ?_⟩
  · rw [deeds_record]
    exact List.prefix_append _ _
  · intro hc
    exact absurd (ho.symm.trans hc) (by decide)

theorem onward_stand (h : Hub) (state : State) (connection : Option Connection) :
    Onward h { h with state, connection } :=
  ⟨⟨List.prefix_refl _, fun _ s hs => ⟨s, hs, .refl s⟩, fun hc => ⟨hc, rfl⟩⟩, rfl, rfl, rfl⟩

theorem steady_record (h : Hub) {d : Deed} (hd : d.frame? = none) (hn : d ≠ .dismissed) :
    Steady h (h.record d) :=
  ⟨⟨later_record h hd, rfl, rfl, dismissals_record h hn⟩, rfl, rfl⟩

theorem steady_sent {h : Hub} (ho : h.queueOpen = true) (f : Frame) :
    Steady h (h.record (.sent f)) :=
  ⟨⟨later_record_of_open ho _, rfl, rfl, dismissals_record h (by simp)⟩, rfl, rfl⟩

theorem steady_wake (h : Hub) (r : Runner) : Steady h (h.wake r) := (alike_wake h r).steady

theorem steady_send (h : Hub) (f : Frame) : Steady h (h.send f) := by
  cases ho : h.queueOpen with
  | false =>
    rw [send_of_closed ho]
    exact .refl h
  | true =>
    exact (steady_sent ho f).trans (alike_send ho f).steady

theorem steady_updateSlot {h : Hub} {i : Nat} {f : Slot → Slot}
    (hf : ∀ s, h.slots[i]? = some s → SlotLater s (f s)) : Steady h (h.updateSlot i f) := by
  refine ⟨⟨⟨List.prefix_refl _, ?_, fun hc => ⟨hc, rfl⟩⟩, rfl, rfl, rfl⟩, rfl, rfl⟩
  intro j s hs
  by_cases hij : i = j
  · subst hij
    exact ⟨f s, updateSlot_self hs f, hf s hs⟩
  · exact ⟨s, (updateSlot_of_ne h (Ne.symm hij) f).trans hs, .refl s⟩

theorem steady_untrack (h : Hub) (unique : UInt64) : Steady h (h.untrack unique) :=
  ⟨⟨⟨List.prefix_refl _, fun _ s hs => ⟨s, hs, .refl s⟩, fun hc => ⟨hc, rfl⟩⟩, rfl, rfl, rfl⟩,
    rfl, rfl⟩

theorem steady_enrol (h : Hub) (header : Kernel.InHeader) (op : Operation) :
    Steady h (h.enrol header op).1 := by
  refine ⟨⟨⟨List.prefix_refl _, ?_, fun hc => ⟨hc, rfl⟩⟩, rfl, rfl, rfl⟩, rfl, rfl⟩
  intro i s hs
  obtain ⟨hi, -⟩ := List.getElem?_eq_some_iff.mp hs
  refine ⟨s, ?_, .refl s⟩
  show (h.slots ++ _)[i]? = some s
  rw [List.getElem?_append_left hi, hs]

/-! ## Answers -/

theorem steady_markAnswered {h : Hub} {r : Request} (hp : h.progress r = .pending) :
    Steady h (h.markAnswered r) := by
  refine steady_updateSlot ?_
  intro s hs
  unfold progress slot? at hp
  rw [hs] at hp
  exact ⟨rfl, fun hne => absurd hp hne⟩

theorem steady_deliver (h : Hub) (r : Request) (reply : Reply) :
    Steady h (h.deliver r reply) := by
  unfold deliver
  split
  · dsimp only
    split
    · exact (steady_untrack h _).trans (steady_send _ _)
    · exact steady_untrack h _
  · exact .refl h

theorem steady_answer (profile : Profile) (h : Hub) (r : Request) (a : Answer) :
    Steady h (h.answer profile r a).1 := by
  by_cases hp : h.progress r = .pending
  · rcases answer_of_pending hp profile a with ⟨reply, -, ha⟩ | ⟨-, ha⟩
    · exact ((steady_markAnswered hp).trans (steady_deliver _ _ _)).trans ha.steady
    · exact (steady_markAnswered hp).trans ha.steady
  · exact (alike_answer hp profile a).steady

/-! ## Interrupts and the end -/

theorem steady_interrupt (h : Hub) (handle : Nat) : Steady h (h.interrupt handle) := by
  unfold interrupt
  refine Steady.trans (steady_updateSlot ?_) (steady_wake _ _)
  exact fun _ _ => ⟨rfl, fun _ => rfl⟩

theorem steady_closeOne (h : Hub) (handle : Nat) : Steady h (h.closeOne handle) := by
  unfold closeOne slot?
  split
  · rename_i s hs
    split
    · rename_i hp
      refine Steady.trans (steady_updateSlot ?_) ((steady_interrupt _ _).trans (steady_send _ _))
      intro t ht
      rw [hs] at ht
      cases ht
      exact ⟨rfl, fun hne => absurd hp hne⟩
    · exact .refl h
  · exact .refl h

/-- What holds when nothing is listed as pending any more, and what closing a request keeps,
holds when all that were pending are closed, whatever the order. -/
theorem closePending_keeps (drain : Drain) {motive : Hub → Prop} {h : Hub}
    (hempty : motive { h with pending := [] })
    (hone : ∀ g, motive g → ∀ p ∈ h.pending, motive (g.closeOne p.2)) :
    motive (h.closePending drain) := by
  refine List.foldlRecOn (drain.order h.pending) _ hempty ?_
  intro g hg p hp
  exact hone g hg p ((drain.mem_order h.pending).mp hp)

theorem steady_closePending (drain : Drain) (h : Hub) : Steady h (h.closePending drain) := by
  have hempty : Steady h { h with pending := [] } :=
    ⟨⟨⟨List.prefix_refl _, fun _ s hs => ⟨s, hs, .refl s⟩, fun hc => ⟨hc, rfl⟩⟩,
      rfl, rfl, rfl⟩, rfl, rfl⟩
  exact closePending_keeps drain hempty fun g hg p _ => hg.trans (steady_closeOne g p.2)

end Hub

end Fuse
