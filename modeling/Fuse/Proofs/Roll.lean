-- The roll of the requests that handlers were called with. Each of them keeps its
-- slot, whoever still waits for an answer is held by someone, and whatever is held
-- was handed to a handler. None of this depends on the numbers of the kernel.
import Fuse.Proofs.Accounts

namespace Fuse

namespace Hub

variable {h h' : Hub} {held held' : List Request} {r : Request}

/-- The requests that are held agree with the calls of handlers. A request that
the kernel waits for is pending until a frame was sent for it. -/
structure Roll (held : List Request) (h : Hub) : Prop where
  called : ∀ r ∈ held, ∃ op, (r, op) ∈ h.calls
  outstanding : ∀ r op, (r, op) ∈ h.calls → h.progress r = .pending → r ∈ held
  enrolled : ∀ r op, (r, op) ∈ h.calls →
    (∃ s, h.slots[r.handle]? = some s ∧ s.unique = r.unique) ∧
      r.kind = op.kind ∧ r.limit = op.replyLimit
  apart : ∀ r op r' op', (r, op) ∈ h.calls → (r', op') ∈ h.calls → r'.handle = r.handle → r' = r
  replied : ∀ r op, (r, op) ∈ h.calls → r.kind.expectsReply = true → h.progress r ≠ .pending →
    ∃ f ∈ h.queue, f.unique = r.unique

theorem progress_congr (hs : h'.slots = h.slots) (r : Request) : h'.progress r = h.progress r := by
  unfold progress slot?
  rw [hs]

theorem progress_updateSlot_of_ne (h : Hub) {i : Nat} (hr : r.handle ≠ i) (f : Slot → Slot) :
    (h.updateSlot i f).progress r = h.progress r := by
  unfold progress slot?
  rw [updateSlot_of_ne h hr]

theorem progress_interrupt (h : Hub) (i : Nat) (r : Request) :
    (h.interrupt i).progress r = h.progress r := by
  refine ((alike_interrupt h i).progress r).trans ?_
  by_cases hr : r.handle = i
  · unfold progress slot?
    rw [hr]
    cases hs : h.slots[i]? with
    | none => simp [updateSlot, hs]
    | some s => simp [updateSlot_self hs]
  · exact progress_updateSlot_of_ne h hr _

/-! ## Answers -/

theorem deliver_calls (h : Hub) (r : Request) (reply : Reply) :
    (h.deliver r reply).calls = h.calls := by
  unfold deliver
  split
  · dsimp only
    split
    · exact send_calls _ _
    · rfl
  · rfl

theorem deliver_slots (h : Hub) (r : Request) (reply : Reply) :
    (h.deliver r reply).slots = h.slots := by
  unfold deliver
  split
  · dsimp only
    split
    · exact send_slots _ _
    · rfl
  · rfl

theorem calls_answer (profile : Profile) (h : Hub) (r : Request) (a : Answer) :
    (h.answer profile r a).1.calls = h.calls := by
  by_cases hp : h.progress r = .pending
  · rcases answer_of_pending hp profile a with ⟨reply, -, ha⟩ | ⟨-, ha⟩
    · rw [ha.calls, deliver_calls]
      rfl
    · rw [ha.calls]
      rfl
  · exact (alike_answer hp profile a).calls

theorem markAnswered_progress (h : Hub) (r : Request) :
    (h.markAnswered r).progress r ≠ .pending := by
  unfold progress slot? markAnswered
  cases hs : h.slots[r.handle]? with
  | none => simp [updateSlot, hs]
  | some s => simp [updateSlot_self hs]

/-- A request that was answered or let go waits no longer. -/
theorem answered_progress (profile : Profile) (h : Hub) (r : Request) (a : Answer) :
    (h.answer profile r a).1.progress r ≠ .pending := by
  by_cases hp : h.progress r = .pending
  · have hlen : r.handle < (h.markAnswered r).slots.length := by
      unfold progress slot? at hp
      cases hs : h.slots[r.handle]? with
      | none =>
        rw [hs] at hp
        cases hp
      | some s =>
        obtain ⟨hlt, -⟩ := List.getElem?_eq_some_iff.mp hs
        simpa [markAnswered, updateSlot] using hlt
    have hm := markAnswered_progress h r
    rcases answer_of_pending hp profile a with ⟨reply, -, ha⟩ | ⟨-, ha⟩
    · rw [ha.progress]
      exact (steady_deliver _ r reply).progress hlen hm
    · rw [ha.progress]
      exact hm
  · rw [(alike_answer hp profile a).progress]
    exact hp

theorem progress_answer_of_ne (profile : Profile) (h : Hub) {r r' : Request}
    (hne : r'.handle ≠ r.handle) (a : Answer) :
    (h.answer profile r a).1.progress r' = h.progress r' := by
  have hmarked := progress_updateSlot_of_ne h hne fun s => { s with progress := .answered }
  by_cases hp : h.progress r = .pending
  · rcases answer_of_pending hp profile a with ⟨reply, -, ha⟩ | ⟨-, ha⟩
    · exact (progress_congr (ha.slots.trans (deliver_slots _ _ reply)) r').trans hmarked
    · exact (progress_congr ha.slots r').trans hmarked
  · exact (alike_answer hp profile a).progress r'

theorem progress_enrol (h : Hub) (header : Kernel.InHeader) (op : Operation) :
    (h.enrol header op).1.progress (h.enrol header op).2 = .pending := by
  have hslot : (h.enrol header op).1.slots[h.slots.length]? = some { unique := header.unique } :=
    List.getElem?_concat_length
  show (((h.enrol header op).1.slots[h.slots.length]?).map (·.progress)).getD .closed = _
  rw [hslot]
  rfl

theorem progress_enrol_of_lt (header : Kernel.InHeader) (op : Operation)
    (hr : r.handle < h.slots.length) : (h.enrol header op).1.progress r = h.progress r := by
  unfold progress slot?
  rw [show (h.enrol header op).1.slots[r.handle]? = h.slots[r.handle]? from
    List.getElem?_append_left hr]

namespace Roll

theorem handle_lt {op : Operation} (l : Roll held h) (hc : (r, op) ∈ h.calls) :
    r.handle < h.slots.length := by
  obtain ⟨⟨s, hs, -⟩, -⟩ := l.enrolled r op hc
  exact (List.getElem?_eq_some_iff.mp hs).1

theorem later (l : Roll held h) (hl : Later h h') (hc : h'.calls = h.calls)
    (hp : ∀ r op, (r, op) ∈ h.calls → h'.progress r = h.progress r) : Roll held h' := by
  refine ⟨hc ▸ l.called, ?_, ?_, hc ▸ l.apart, ?_⟩
  · intro r op hr hpr
    rw [hc] at hr
    rw [hp r op hr] at hpr
    exact l.outstanding r op hr hpr
  · intro r op hr
    rw [hc] at hr
    obtain ⟨⟨s, hs, hu⟩, hrest⟩ := l.enrolled r op hr
    obtain ⟨s', hs', hsl⟩ := hl.slot _ s hs
    exact ⟨⟨s', hs', hsl.unique.trans hu⟩, hrest⟩
  · intro r op hr hk hpr
    rw [hc] at hr
    rw [hp r op hr] at hpr
    obtain ⟨f, hf, hu⟩ := l.replied r op hr hk hpr
    exact ⟨f, hl.queue.subset hf, hu⟩

theorem alike (l : Roll held h) (a : Alike h h') : Roll held h' :=
  l.later a.steady.toLater a.calls fun r _ _ => a.progress r

theorem perm (l : Roll held h) (hp : held'.Perm held) : Roll held' h :=
  ⟨fun r hr => l.called r (hp.mem_iff.mp hr),
    fun r op hc hpr => hp.mem_iff.mpr (l.outstanding r op hc hpr), l.enrolled, l.apart, l.replied⟩

/-- An answer to a request that no handler was called with. -/
theorem answerOther (l : Roll held h) (hne : ∀ r' op, (r', op) ∈ h.calls → r'.handle ≠ r.handle)
    (profile : Profile) (a : Answer) : Roll held (h.answer profile r a).1 :=
  l.later (steady_answer profile h r a).toLater (calls_answer profile h r a)
    fun r' op hc => progress_answer_of_ne profile h (hne r' op hc) a

/-- An answer to a request that is held, by whoever holds it. -/
theorem answer (l : Roll (r :: held) h) (ho : h.queueOpen = true) (hr : h.reachable = true)
    (profile : Profile) (a : Answer) : Roll held (h.answer profile r a).1 := by
  have hl := (steady_answer profile h r a).toLater
  have hcalls := calls_answer profile h r a
  have hdone := answered_progress profile h r a
  obtain ⟨op₀, hc₀⟩ := l.called r List.mem_cons_self
  have hprogress : ∀ r' op, (r', op) ∈ h.calls → r' ≠ r →
      (h.answer profile r a).1.progress r' = h.progress r' := fun r' op hc hne =>
    progress_answer_of_ne profile h (fun he => hne (l.apart r op₀ r' op hc₀ hc he)) a
  refine ⟨?_, ?_, ?_, hcalls ▸ l.apart, ?_⟩
  · intro r' hr'
    rw [hcalls]
    exact l.called r' (List.mem_cons_of_mem _ hr')
  · intro r' op hc hp
    rw [hcalls] at hc
    have hne : r' ≠ r := fun he => hdone (he ▸ hp)
    rw [hprogress r' op hc hne] at hp
    rcases List.mem_cons.mp (l.outstanding r' op hc hp) with he | hr'
    · exact absurd he hne
    · exact hr'
  · intro r' op hc
    rw [hcalls] at hc
    obtain ⟨⟨s, hs, hu⟩, hrest⟩ := l.enrolled r' op hc
    obtain ⟨s', hs', hsl⟩ := hl.slot _ s hs
    exact ⟨⟨s', hs', hsl.unique.trans hu⟩, hrest⟩
  · intro r' op hc hk hp
    rw [hcalls] at hc
    have hold : h.progress r' ≠ .pending → ∃ f ∈ (h.answer profile r a).1.queue,
        f.unique = r'.unique := by
      intro hp'
      obtain ⟨f, hf, hu⟩ := l.replied r' op hc hk hp'
      exact ⟨f, hl.queue.subset hf, hu⟩
    by_cases hne : r' = r
    · subst hne
      by_cases hp' : h.progress r' = .pending
      · rcases answer_cases hp' ho hr profile a with ⟨-, reply, f, -, -, hu, ha⟩ | ⟨hk', -⟩
        · refine ⟨f, ?_, hu⟩
          rw [ha.queue, queue_record]
          exact List.mem_append_right _ List.mem_cons_self
        · rw [hk] at hk'
          cases hk'
      · exact hold hp'
    · rw [hprogress r' op hc hne] at hp
      exact hold hp

theorem enrol (l : Roll held h) (header : Kernel.InHeader) (op : Operation) :
    Roll held (h.enrol header op).1 :=
  l.later (steady_enrol h header op).toLater rfl
    fun _ _ hc => progress_enrol_of_lt header op (l.handle_lt hc)

/-- A call puts its request on the roll. -/
theorem call (l : Roll held h) (header : Kernel.InHeader) (op : Operation) :
    Roll ((h.enrol header op).2 :: held)
      ((h.enrol header op).1.record (.called (h.enrol header op).2 op)) := by
  have l' := l.enrol header op
  have hcalls := calls_record (h.enrol header op).1 (.called (h.enrol header op).2 op)
  have hqueue := queue_record (h.enrol header op).1 (.called (h.enrol header op).2 op)
  have hslot : (h.enrol header op).1.slots[h.slots.length]? = some { unique := header.unique } :=
    List.getElem?_concat_length
  have hnew : ∀ r' op', (r', op') ∈ (h.enrol header op).1.calls →
      r'.handle ≠ (h.enrol header op).2.handle := fun r' op' hc => Nat.ne_of_lt (l.handle_lt hc)
  refine ⟨?_, ?_, ?_, ?_, ?_⟩
  · intro r hr
    rw [hcalls]
    rcases List.mem_cons.mp hr with rfl | hr
    · exact ⟨op, List.mem_append_right _ List.mem_cons_self⟩
    · obtain ⟨op', hc⟩ := l'.called r hr
      exact ⟨op', List.mem_append_left _ hc⟩
  · intro r op' hr hp
    rw [hcalls] at hr
    rcases List.mem_append.mp hr with hr | hr
    · exact List.mem_cons_of_mem _ (l'.outstanding r op' hr hp)
    · cases List.mem_singleton.mp hr
      exact List.mem_cons_self
  · intro r op' hr
    rw [hcalls] at hr
    rcases List.mem_append.mp hr with hr | hr
    · exact l'.enrolled r op' hr
    · cases List.mem_singleton.mp hr
      exact ⟨⟨_, hslot, rfl⟩, rfl, rfl⟩
  · intro r op₁ r' op₂ hr hr' he
    rw [hcalls] at hr hr'
    rcases List.mem_append.mp hr with hr | hr
    · rcases List.mem_append.mp hr' with hr' | hr'
      · exact l'.apart r op₁ r' op₂ hr hr' he
      · cases List.mem_singleton.mp hr'
        exact absurd he.symm (hnew r op₁ hr)
    · cases List.mem_singleton.mp hr
      rcases List.mem_append.mp hr' with hr' | hr'
      · exact absurd he (hnew r' op₂ hr')
      · cases List.mem_singleton.mp hr'
        rfl
  · intro r op' hr hk hp
    rw [hcalls] at hr
    rcases List.mem_append.mp hr with hr | hr
    · obtain ⟨f, hf, hu⟩ := l'.replied r op' hr hk hp
      exact ⟨f, hqueue ▸ List.mem_append_left _ hf, hu⟩
    · cases List.mem_singleton.mp hr
      exact absurd (progress_enrol h header op) hp

end Roll

end Hub

namespace Session

variable {σ : Type} {srv : Server σ}

/-! ## Courses -/

/-- The roll of the session, with the requests that are held in it. -/
def Roll (s : Session σ) : Prop := s.hub.Roll s.held

theorem Roll.alike {s s' : Session σ} (l : Roll s) (a : Alike s s') : Roll s' := by
  unfold Roll
  rw [a.held]
  exact Hub.Roll.alike l a.hub

theorem roll_answerKept {s : Session σ} (l : Roll s) (ho : s.hub.queueOpen = true)
    (hr : s.hub.reachable = true) (place : Nat) (a : Answer) :
    Roll (s.answerKept srv place a).1 := by
  rcases answerKept_cases srv s place a with h | ⟨r, hk, h⟩
  · rwa [h]
  · rw [h]
    exact (Hub.Roll.perm l (perm_afterKept srv hk a).symm).answer ho hr srv.profile a

theorem roll_runTask {s : Session σ} (l : Roll s) (ho : s.hub.queueOpen = true)
    (hr : s.hub.reachable = true) (handle : Nat) : Roll (s.runTask srv handle) := by
  rcases runTask_cases srv s handle with h | ⟨t, ht, h⟩
  · rwa [h]
  · rw [h]
    exact (Hub.Roll.perm l (perm_afterTask srv ht).symm).answer ho hr srv.profile t.answer

theorem roll_use {s : Session σ} {r : Request} (l : s.hub.Roll (r :: s.held))
    (ho : s.hub.queueOpen = true) (hr : s.hub.reachable = true) (use : Use) :
    Roll (s.use srv r use).1 := by
  cases use with
  | answer a => exact l.answer ho hr srv.profile a
  | keep => exact l.perm (perm_keep s r)
  | onInterrupt a =>
    have hw := Hub.alike_wake s.hub (.task r.handle)
    exact (l.alike hw).perm (perm_onInterrupt s r a)

theorem roll_dispatch {s : Session σ} (l : Roll s) (ho : s.hub.queueOpen = true)
    (hr : s.hub.reachable = true) (header : Kernel.InHeader) (op : Operation) :
    Roll (s.dispatch srv header op) := by
  have hs := Hub.steady_enrol s.hub header op
  rcases dispatch_cases srv s header op with ⟨a, h⟩ | ⟨t, use, hcalled, huse⟩
  · rw [h]
    have he := Hub.Roll.enrol l header op
    exact he.answerOther (fun r' op' hc => Nat.ne_of_lt (Hub.Roll.handle_lt l hc)) srv.profile a
  · have hc := (Hub.Roll.call l header op).alike hcalled.hub
    have hheld : t.held = s.held := hcalled.held
    rw [← hheld] at hc
    have ho' := hcalled.hub.queueOpen.trans (hs.queueOpen.trans ho)
    have hr' := hcalled.hub.reachable.trans (hs.reachable.trans hr)
    exact (roll_use hc ho' hr' use).alike huse

theorem roll_dispatchForgets {s : Session σ} (l : Roll s) (ho : s.hub.queueOpen = true)
    (hr : s.hub.reachable = true) (header : Kernel.InHeader) (items : List Kernel.ForgetOne) :
    Roll (s.dispatchForgets srv header items) := by
  induction items generalizing s with
  | nil => exact l
  | cons i items ih =>
    have hs := steady_dispatch srv s header (.forget i.nodeid i.nlookup)
    exact ih (roll_dispatch l ho hr header _) (hs.queueOpen.trans ho) (hs.reachable.trans hr)

theorem roll_handled {x : Receipt σ} {s' : Session σ} {ending : Option Ending}
    (hx : Handled srv x s' ending) (l : Roll x.session)
    (ho : x.session.hub.queueOpen = true) (hr : x.session.hub.reachable = true) : Roll s' := by
  cases hx with
  | dropped _ ha => exact l.alike ha
  | @refused t header e _ _ _ ha _ =>
    have lt : t.hub.Roll t.held := l.alike ha
    exact lt.later (Hub.steady_send _ _).toLater (Hub.send_calls _ _)
      fun r _ _ => Hub.progress_congr (Hub.send_slots _ _) r
  | forgotten _ _ _ => exact roll_dispatchForgets l ho hr _ _
  | dispatched _ _ _ _ _ _ => exact roll_dispatch l ho hr _ _
  | @interrupted target handle _ _ =>
    have ha := Hub.alike_interrupt x.session.hub handle
    exact Hub.Roll.later l (Hub.steady_interrupt _ handle).toLater ha.calls
      fun r _ _ => Hub.progress_interrupt _ handle r
  | dismissed _ _ _ _ => exact l
  | @greeted header init _ _ _ _ =>
    obtain ⟨state, connection, f, ha, -, -, -⟩ := handshake_spec srv header.unique init ho
    have hl := (onward_handshake srv ho header.unique init).1
    have hc := Hub.calls_record { x.session.hub with state, connection } (.sent f)
    unfold Roll
    rw [ha.held]
    exact Hub.Roll.later l hl.toLater ((ha.hub.calls.trans hc).trans (List.append_nil _))
      fun r _ _ => Hub.progress_congr ha.hub.slots r

theorem roll_start (user : σ) : Roll (start user) := by
  refine ⟨?_, ?_, ?_, ?_, ?_⟩
  · intro r hr
    cases hr
  · intro r op hc
    cases hc
  · intro r op hc
    cases hc
  · intro r op r' op' hc
    cases hc
  · intro r op hc
    cases hc

theorem Course.roll {s s' : Session σ} {xs : List (Receipt σ)} (c : Course srv s xs s')
    (l : Roll s) (ho : s.hub.queueOpen = true) (hr : s.hub.reachable = true) : Roll s' := by
  induction c with
  | refl => exact l
  | @frame xs s' s'' frame d h ih =>
    have hd := (d.onward ho).1
    have hx := handled srv s' frame
    rw [h] at hx
    exact roll_handled hx ih (hd.queueOpen.trans ho) (hd.reachable.trans hr)
  | answer d place a ih =>
    have hd := (d.onward ho).1
    exact roll_answerKept ih (hd.queueOpen.trans ho) (hd.reachable.trans hr) place a
  | task d handle ih =>
    have hd := (d.onward ho).1
    exact roll_runTask ih (hd.queueOpen.trans ho) (hd.reachable.trans hr) handle
  | quiet _ h ih => exact ih.alike h

theorem Course.calls_idle {s s' : Session σ} (c : Course srv s [] s') :
    s'.hub.calls = s.hub.calls := by
  generalize hxs : ([] : List (Receipt σ)) = xs at c
  induction c with
  | refl => rfl
  | frame => exact absurd hxs (by simp)
  | @answer xs s' _ place a ih =>
    refine Eq.trans ?_ (ih hxs)
    rcases answerKept_cases srv s' place a with h | ⟨r, -, h⟩
    · rw [h]
    · rw [h]
      exact Hub.calls_answer _ _ _ _
  | @task xs s' _ handle ih =>
    refine Eq.trans ?_ (ih hxs)
    rcases runTask_cases srv s' handle with h | ⟨t, -, h⟩
    · rw [h]
    · rw [h]
      exact Hub.calls_answer _ _ _ _
  | quiet _ h ih => exact h.hub.calls.trans (ih hxs)

theorem Ends.roll {s s' : Session σ} {xs : List (Receipt σ)} {ending : Ending}
    (e : Ends srv s xs s' ending) (l : Roll s) (ho : s.hub.queueOpen = true)
    (hr : s.hub.reachable = true) : Roll s' := by
  cases e with
  | outside c _ => exact c.roll l ho hr
  | @frame xs s' s'' frame _ c h =>
    have hc := (c.onward ho).1
    have hx := handled srv s' frame
    rw [h] at hx
    exact roll_handled hx (c.roll l ho hr) (hc.queueOpen.trans ho) (hc.reachable.trans hr)

theorem roll_parting {s t : Session σ} (l : Roll s) (ht : Parting s t) : Roll t := by
  unfold Roll
  rw [ht.held]
  exact Hub.Roll.later l ht.later ht.calls fun r _ _ => Hub.progress_congr ht.slots r

/-- The farewell keeps the roll. -/
theorem roll_dismissed (srv : Server σ) {s : Session σ} (l : Roll s) (ho : s.hub.queueOpen = true)
    (hr : s.hub.reachable = true) : Roll (s.dismissed srv) := by
  obtain ⟨t, ht, c⟩ := parting srv s
  exact c.roll (roll_parting l ht) (ht.queueOpen.trans ho) (ht.reachable.trans hr)

/-- No operation is handed out during the farewell. -/
theorem calls_dismissed (srv : Server σ) (s : Session σ) :
    (s.dismissed srv).hub.calls = s.hub.calls := by
  obtain ⟨t, ht, c⟩ := parting srv s
  exact c.calls_idle.trans ht.calls

end Session

end Fuse
