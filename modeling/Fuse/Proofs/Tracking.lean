-- What keeps a request in the map of pending requests. Whatever happens to other requests,
-- an unanswered one is found by its number as long as nobody else was given the number.
import Fuse.Proofs.Provenance
import Fuse.Proofs.Routing
import Fuse.Proofs.WindDown
import Fuse.Session.Tracking

namespace Fuse

namespace Hub

variable {h h' : Hub} {held : List Request} {r q : Request}

/-! ## Requests that are unanswered -/

theorem mem_called : r ∈ h.called ↔ ∃ op, (r, op) ∈ h.calls := by
  simp [called]

theorem called_congr (hc : h'.calls = h.calls) : h'.called = h.called :=
  congrArg (List.map Prod.fst) hc

theorem called_answer (profile : Profile) (h : Hub) (q : Request) (a : Answer) :
    (h.answer profile q a).1.called = h.called := called_congr (calls_answer profile h q a)

theorem called_call (header : Kernel.InHeader) (op : Operation) :
    ((h.enrol header op).1.record (.called (h.enrol header op).2 op)).called =
      h.called ++ [(h.enrol header op).2] := by
  unfold called
  rw [calls_record]
  exact List.map_append

theorem called_turnAway (h : Hub) (header : Kernel.InHeader) (op : Operation)
    (profile : Profile) (a : Answer) :
    ((h.enrol header op).1.answer profile (h.enrol header op).2 a).1.called = h.called :=
  called_answer _ _ _ _

theorem unanswered_congr (hc : h'.called = h.called) (hp : h'.progress r = h.progress r) :
    h'.Unanswered r ↔ h.Unanswered r := by
  unfold Unanswered
  rw [hc, hp]

/-- A request that is interrupted says so. -/
theorem isInterrupted_interrupt (hr : r.handle < h.slots.length) :
    (h.interrupt r.handle).isInterrupted r = true := by
  have hslots := (alike_interrupt h r.handle).slots
  have hslot := updateSlot_self (List.getElem?_eq_getElem hr)
    fun s => { s with interrupted := true }
  unfold isInterrupted slot?
  rw [hslots, hslot]
  rfl

namespace Roll

theorem lt_of_called (l : Roll held h) (hr : r ∈ h.called) : r.handle < h.slots.length := by
  obtain ⟨op, hc⟩ := mem_called.mp hr
  exact l.handle_lt hc

theorem eq_of_handle (l : Roll held h) (hr : r ∈ h.called) (hq : q ∈ h.called)
    (he : r.handle = q.handle) : r = q := by
  obtain ⟨op, hc⟩ := mem_called.mp hr
  obtain ⟨op', hc'⟩ := mem_called.mp hq
  exact l.apart q op' r op hc' hc he

/-- What is still pending after an answer to another request. -/
theorem progress_answer (l : Roll held h) (hr : r ∈ h.called) (hq : q ∈ h.called)
    (hne : r ≠ q) (profile : Profile) (a : Answer) :
    (h.answer profile q a).1.progress r = h.progress r :=
  progress_answer_of_ne profile h (fun he => hne (l.eq_of_handle hr hq he)) a

/-- A request that no handler serves is answered at once, and all others wait as before. -/
theorem progress_turnAway (l : Roll held h) (hq : q ∈ h.called) (header : Kernel.InHeader)
    (op : Operation) (profile : Profile) (a : Answer) :
    ((h.enrol header op).1.answer profile (h.enrol header op).2 a).1.progress q =
      h.progress q := by
  have hlt := l.lt_of_called hq
  rw [progress_answer_of_ne profile _ (Nat.ne_of_lt hlt), progress_enrol_of_lt header op hlt]

end Roll

theorem pending_answer (ho : h.queueOpen = true) (hr : h.reachable = true) (profile : Profile)
    (q : Request) (a : Answer) :
    (h.answer profile q a).1.pending = h.pending ∨
      h.progress q = .pending ∧
        (h.answer profile q a).1.pending = h.pending.erase q.unique := by
  by_cases hp : h.progress q = .pending
  · rcases answer_cases hp ho hr profile a with ⟨-, _, _, -, -, -, ha⟩ | ⟨-, ha | ha⟩
    · exact Or.inr ⟨hp, ha.pending⟩
    · exact Or.inl ha.pending
    · exact Or.inr ⟨hp, ha.pending⟩
  · exact Or.inl (alike_answer hp profile a).pending

theorem sorted_pending_answer (hs : KeyedList.Sorted h.pending) (ho : h.queueOpen = true)
    (hr : h.reachable = true) (profile : Profile) (q : Request) (a : Answer) :
    KeyedList.Sorted (h.answer profile q a).1.pending := by
  rcases pending_answer ho hr profile q a with he | ⟨-, he⟩
  · rwa [he]
  · rw [he]
    exact KeyedList.sorted_erase _ hs

/-! ## The map, whatever the numbers are -/

/-- Every number in the map leads to an unanswered request that has the number. -/
structure Listed (h : Hub) : Prop where
  sorted : KeyedList.Sorted h.pending
  named : ∀ p ∈ h.pending, ∃ r, h.Unanswered r ∧ r.unique = p.1 ∧ r.handle = p.2

namespace Listed

theorem congr (l : Listed h) (hc : h'.called = h.called) (hp : h'.pending = h.pending)
    (hs : ∀ r, h'.progress r = h.progress r) : Listed h' := by
  refine ⟨hp ▸ l.sorted, ?_⟩
  intro p hmem
  obtain ⟨r, hr, hrest⟩ := l.named p (hp ▸ hmem)
  exact ⟨r, (unanswered_congr hc (hs r)).mpr hr, hrest⟩

/-- An answer takes its request out of the map, or finds that it is not there. -/
theorem answer (l : Listed h) (lr : Roll held h) (ho : h.queueOpen = true)
    (hr : h.reachable = true) (hq : q ∈ h.called) (profile : Profile) (a : Answer) :
    Listed (h.answer profile q a).1 := by
  refine ⟨sorted_pending_answer l.sorted ho hr profile q a, ?_⟩
  intro p hp
  obtain ⟨hold, hnot⟩ := (answer_effect ho hr profile q a).2 p hp
  obtain ⟨r, hu, hunique, hhandle⟩ := l.named p hold
  have hne : r ≠ q := by
    rintro rfl
    exact hnot hu.2.2 hu.2.1 hunique.symm
  have hprogress := lr.progress_answer hu.1 hq hne profile a
  exact ⟨r, (unanswered_congr (called_answer profile h q a) hprogress).mpr hu, hunique, hhandle⟩

/-- A call puts its request into the map, perhaps in the place of another. -/
theorem call (l : Listed h) (lr : Roll held h) (header : Kernel.InHeader) (op : Operation) :
    Listed ((h.enrol header op).1.record (.called (h.enrol header op).2 op)) := by
  refine ⟨sorted_pending_enrol header op l.sorted, ?_⟩
  intro p hp
  rcases mem_pending_enrol header op hp with hp | ⟨hk, rfl⟩
  · obtain ⟨r, hu, hrest⟩ := l.named p hp
    refine ⟨r, ⟨?_, hu.2.1, ?_⟩, hrest⟩
    · rw [called_call]
      exact List.mem_append_left _ hu.1
    · exact (progress_enrol_of_lt header op (lr.lt_of_called hu.1)).trans hu.2.2
  · refine ⟨(h.enrol header op).2, ⟨?_, hk, progress_enrol h header op⟩, rfl, rfl⟩
    rw [called_call]
    exact List.mem_append_right _ List.mem_cons_self

/-- A request that no handler serves leaves the map as soon as it came. -/
theorem turnAway (l : Listed h) (lr : Roll held h) (ho : h.queueOpen = true)
    (hr : h.reachable = true) (header : Kernel.InHeader) (op : Operation) (profile : Profile)
    (a : Answer) : Listed ((h.enrol header op).1.answer profile (h.enrol header op).2 a).1 := by
  refine ⟨sorted_pending_answer (sorted_pending_enrol header op l.sorted) ho hr _ _ _, ?_⟩
  intro p hp
  obtain ⟨hmem, hnot⟩ :=
    (answer_effect (h := (h.enrol header op).1) ho hr profile (h.enrol header op).2 a).2 p hp
  rcases mem_pending_enrol header op hmem with hold | ⟨hk, rfl⟩
  · obtain ⟨r, hu, hrest⟩ := l.named p hold
    have hprogress := lr.progress_turnAway hu.1 header op profile a
    have hcalled := called_turnAway h header op profile a
    exact ⟨r, (unanswered_congr hcalled hprogress).mpr hu, hrest⟩
  · exact absurd rfl (hnot (progress_enrol h header op) hk)

theorem slot_of_pending (l : Listed h) (lr : Roll held h) {p : UInt64 × Nat}
    (hp : p ∈ h.pending) :
    ∃ s, h.slots[p.2]? = some s ∧ s.unique = p.1 ∧ s.progress = .pending := by
  obtain ⟨r, hu, hunique, hhandle⟩ := l.named p hp
  obtain ⟨op, hc⟩ := mem_called.mp hu.1
  obtain ⟨⟨s, hs, hsu⟩, -⟩ := lr.enrolled r op hc
  have hpending := hu.2.2
  unfold progress slot? at hpending
  rw [hs] at hpending
  exact ⟨s, hhandle ▸ hs, hsu.trans hunique, hpending⟩

end Listed

/-! ## One request and its number -/

/-- As long as the request is unanswered, its number leads to it, and no other request
that waits has the number. -/
def Alone (h : Hub) (r : Request) : Prop :=
  h.Unanswered r → h.pending.get? r.unique = some r.handle ∧
    ∀ q ∈ h.called, q.unique = r.unique → h.progress q = .pending → q = r

namespace Alone

theorem congr (l : Alone h r) (hc : h'.called = h.called) (hp : h'.pending = h.pending)
    (hs : ∀ r, h'.progress r = h.progress r) : Alone h' r := by
  intro hu
  obtain ⟨hg, hothers⟩ := l ((unanswered_congr hc (hs r)).mp hu)
  rw [hp, hc]
  exact ⟨hg, fun q hq hqu hqp => hothers q hq hqu ((hs q).symm.trans hqp)⟩

/-- An answer to another request does not touch this one, since the other has another
number or does not wait any more. -/
theorem answer (l : Alone h r) (lr : Roll held h) (ho : h.queueOpen = true)
    (hr : h.reachable = true) (hq : q ∈ h.called) (profile : Profile) (a : Answer) :
    Alone (h.answer profile q a).1 r := by
  intro hu
  have hcalled := called_answer profile h q a
  have hrq : r ≠ q := by
    rintro rfl
    exact answered_progress profile h r a hu.2.2
  have hmem : r ∈ h.called := hcalled ▸ hu.1
  have hbefore : h.Unanswered r :=
    (unanswered_congr hcalled (lr.progress_answer hmem hq hrq profile a)).mp hu
  obtain ⟨hg, hothers⟩ := l hbefore
  refine ⟨?_, ?_⟩
  · rcases pending_answer ho hr profile q a with he | ⟨hp, he⟩
    · rw [he, hg]
    · have hne : r.unique ≠ q.unique := fun he' => hrq (hothers q hq he'.symm hp).symm
      rw [he, KeyedList.get?_erase_of_ne _ hne, hg]
  · intro q' hq' hunique hp
    rw [hcalled] at hq'
    apply hothers q' hq' hunique
    apply Decidable.byContradiction
    intro hdone
    exact (steady_answer profile h q a).progress (lr.lt_of_called hq') hdone hp

/-- A call gives a number to its request. It may be the number of this request only if
this request is not waiting, and if it is the one that is called, nobody else may wait
with the number. -/
theorem call (l : Alone h r) (lr : Roll held h)
    {header : Kernel.InHeader} {op : Operation}
    (hold : header.unique = r.unique → ¬h.Unanswered r)
    (hnew : header.unique = r.unique → op.kind.expectsReply = true → h.Free r.unique) :
    Alone ((h.enrol header op).1.record (.called (h.enrol header op).2 op)) r := by
  intro hu
  rw [called_call]
  have hprogress {q : Request} (hq : q ∈ h.called) :
      ((h.enrol header op).1.record (.called (h.enrol header op).2 op)).progress q =
        h.progress q := progress_enrol_of_lt header op (lr.lt_of_called hq)
  have hmem := hu.1
  rw [called_call] at hmem
  rcases List.mem_append.mp hmem with hmem | hmem
  · have hbefore : h.Unanswered r := ⟨hmem, hu.2.1, (hprogress hmem).symm.trans hu.2.2⟩
    have hne : r.unique ≠ header.unique := fun he => hold he.symm hbefore
    obtain ⟨hg, hothers⟩ := l hbefore
    refine ⟨(pending_enrol_of_ne header op h hne).trans hg, ?_⟩
    intro q hq hunique hp
    rcases List.mem_append.mp hq with hq | hq
    · exact hothers q hq hunique ((hprogress hq).symm.trans hp)
    · rw [List.mem_singleton.mp hq] at hunique
      exact absurd hunique.symm hne
  · obtain rfl : r = (h.enrol header op).2 := List.mem_singleton.mp hmem
    have hk : op.kind.expectsReply = true := hu.2.1
    refine ⟨?_, ?_⟩
    · show (h.enrol header op).1.pending.get? header.unique = some h.slots.length
      rw [pending_enrol, if_pos hk]
      exact KeyedList.get?_insert_self _ _ _
    · intro q hq hunique hp
      rcases List.mem_append.mp hq with hq | hq
      · exact absurd ((hprogress hq).symm.trans hp) (hnew rfl hk q hq hunique)
      · exact List.mem_singleton.mp hq

theorem turnAway (l : Alone h r) (lr : Roll held h) (ho : h.queueOpen = true)
    (hr : h.reachable = true) {header : Kernel.InHeader} {op : Operation}
    (hold : header.unique = r.unique → ¬h.Unanswered r) (profile : Profile) (a : Answer) :
    Alone ((h.enrol header op).1.answer profile (h.enrol header op).2 a).1 r := by
  intro hu
  have hcalled := called_turnAway h header op profile a
  have hprogress {q : Request} (hq : q ∈ h.called) :=
    lr.progress_turnAway hq header op profile a
  have hmem : r ∈ h.called := hcalled ▸ hu.1
  have hbefore := (unanswered_congr hcalled (hprogress hmem)).mp hu
  have hne : r.unique ≠ header.unique := fun he => hold he.symm hbefore
  have hg := (pending_enrol_of_ne header op h hne).trans (l hbefore).1
  refine ⟨?_, ?_⟩
  · have hne' : r.unique ≠ (h.enrol header op).2.unique := hne
    rcases pending_answer (h := (h.enrol header op).1) ho hr profile (h.enrol header op).2 a with
      he | ⟨-, he⟩
    · rw [he, hg]
    · rw [he, KeyedList.get?_erase_of_ne _ hne', hg]
  · intro q hq hunique hp
    rw [hcalled] at hq
    exact (l hbefore).2 q hq hunique ((hprogress hq).symm.trans hp)

end Alone

/-! ## Both together -/

/-- The map is in order, and the request has its number to itself, if that is safe to
say. -/
structure Tracked (safe : Prop) (r : Request) (h : Hub) : Prop where
  listed : Listed h
  alone : safe → Alone h r

namespace Tracked

variable {safe : Prop}

theorem congr (l : Tracked safe r h) (hc : h'.called = h.called) (hp : h'.pending = h.pending)
    (hs : ∀ r, h'.progress r = h.progress r) : Tracked safe r h' :=
  ⟨l.listed.congr hc hp hs, fun hsafe => (l.alone hsafe).congr hc hp hs⟩

theorem alike (l : Tracked safe r h) (a : Alike h h') : Tracked safe r h' :=
  l.congr (called_congr a.calls) a.pending a.progress

theorem answer (l : Tracked safe r h) (lr : Roll held h) (ho : h.queueOpen = true)
    (hr : h.reachable = true) (hq : q ∈ h.called) (profile : Profile) (a : Answer) :
    Tracked safe r (h.answer profile q a).1 :=
  ⟨l.listed.answer lr ho hr hq profile a,
    fun hsafe => (l.alone hsafe).answer lr ho hr hq profile a⟩

theorem tracks (l : Tracked True r h) : h.Tracks r := fun hu => (l.alone trivial hu).1

end Tracked

end Hub

namespace Session

variable {σ : Type} {srv : Server σ} {safe : Prop} {r : Request}

/-! ## Answers -/

theorem mem_called_of_held {s : Session σ} {q : Request} (l : Roll s) (hq : q ∈ s.held) :
    q ∈ s.hub.called := Hub.mem_called.mpr (l.called q hq)

theorem tracked_answerKept {s : Session σ} (l : s.hub.Tracked safe r) (lr : Roll s)
    (ho : s.hub.queueOpen = true) (hr : s.hub.reachable = true) (place : Nat) (a : Answer) :
    (s.answerKept srv place a).1.hub.Tracked safe r := by
  rcases answerKept_cases srv s place a with h | ⟨q, hk, h⟩
  · rwa [h]
  · have hmem : q ∈ s.held := (perm_afterKept srv hk a).mem_iff.mpr List.mem_cons_self
    rw [h]
    exact l.answer lr ho hr (mem_called_of_held lr hmem) srv.profile a

theorem tracked_runTask {s : Session σ} (l : s.hub.Tracked safe r) (lr : Roll s)
    (ho : s.hub.queueOpen = true) (hr : s.hub.reachable = true) (handle : Nat) :
    (s.runTask srv handle).hub.Tracked safe r := by
  rcases runTask_cases srv s handle with h | ⟨t, ht, h⟩
  · rwa [h]
  · have hmem : t.request ∈ s.held := (perm_afterTask srv ht).mem_iff.mpr List.mem_cons_self
    rw [h]
    exact l.answer lr ho hr (mem_called_of_held lr hmem) srv.profile t.answer

/-! ## Operations -/

theorem tracked_use {s : Session σ} {q : Request} (l : s.hub.Tracked safe r)
    (lr : s.hub.Roll (q :: s.held)) (ho : s.hub.queueOpen = true)
    (hr : s.hub.reachable = true) (use : Use) : (s.use srv q use).1.hub.Tracked safe r := by
  cases use with
  | answer a =>
    exact l.answer lr ho hr (Hub.mem_called.mpr (lr.called q List.mem_cons_self)) srv.profile a
  | keep => exact l
  | onInterrupt a => exact l.alike (Hub.alike_wake _ _)

theorem tracked_dispatch {s : Session σ} (l : s.hub.Tracked safe r) (lr : Roll s)
    (ho : s.hub.queueOpen = true) (hr : s.hub.reachable = true) {header : Kernel.InHeader}
    {op : Operation} (hold : safe → header.unique = r.unique → ¬s.hub.Unanswered r)
    (hnew : safe → header.unique = r.unique → op.kind.expectsReply = true →
      s.hub.Free r.unique) :
    (s.dispatch srv header op).hub.Tracked safe r := by
  have hs := Hub.steady_enrol s.hub header op
  rcases dispatch_cases srv s header op with ⟨a, h⟩ | ⟨t, use, hcalled, huse⟩
  · rw [h]
    exact ⟨l.listed.turnAway lr ho hr header op srv.profile a,
      fun hsafe => (l.alone hsafe).turnAway lr ho hr (hold hsafe) srv.profile a⟩
  · have hcall : Hub.Tracked safe r _ := ⟨l.listed.call lr header op,
      fun hsafe => (l.alone hsafe).call lr (hold hsafe) (hnew hsafe)⟩
    have hroll := (Hub.Roll.call lr header op).alike hcalled.hub
    have hheld : t.held = s.held := hcalled.held
    rw [← hheld] at hroll
    have ho' := hcalled.hub.queueOpen.trans (hs.queueOpen.trans ho)
    have hr' := hcalled.hub.reachable.trans (hs.reachable.trans hr)
    exact (tracked_use (hcall.alike hcalled.hub) hroll ho' hr' use).alike huse.hub

/-- Of an operation at most one call comes, with the new request. -/
theorem called_dispatch (srv : Server σ) (s : Session σ) (header : Kernel.InHeader)
    (op : Operation) : (s.dispatch srv header op).hub.called = s.hub.called ∨
      (s.dispatch srv header op).hub.called = s.hub.called ++ [(s.hub.enrol header op).2] := by
  rcases dispatch_cases srv s header op with ⟨a, h⟩ | ⟨t, use, hcalled, huse⟩
  · rw [h]
    exact Or.inl (Hub.called_turnAway _ _ _ _ _)
  · right
    have hused : (t.use srv (s.hub.enrol header op).2 use).1.hub.called = t.hub.called := by
      cases use with
      | answer a => exact Hub.called_answer _ _ _ _
      | keep => rfl
      | onInterrupt a => exact Hub.called_congr (Hub.alike_wake _ _).calls
    rw [Hub.called_congr huse.hub.calls, hused, Hub.called_congr hcalled.hub.calls]
    exact Hub.called_call header op

/-- A forget makes nobody wait for an answer. -/
theorem unanswered_of_forget {s : Session σ} (lr : Roll s) {header : Kernel.InHeader}
    {op : Operation} (hk : op.kind.expectsReply = false)
    (hu : (s.dispatch srv header op).hub.Unanswered r) : s.hub.Unanswered r := by
  have hmem : r ∈ s.hub.called := by
    have hafter := hu.1
    rcases called_dispatch srv s header op with h | h
    · rwa [h] at hafter
    · rw [h] at hafter
      rcases List.mem_append.mp hafter with hr | hr
      · exact hr
      · have hexpects := hu.2.1
        rw [List.mem_singleton.mp hr] at hexpects
        exact absurd (hexpects.symm.trans hk) (by decide)
  refine ⟨hmem, hu.2.1, Decidable.byContradiction fun hdone => ?_⟩
  have hlater := (steady_dispatch srv s header op).toLater
  exact hlater.progress (Hub.Roll.lt_of_called lr hmem) hdone hu.2.2

theorem tracked_dispatchForgets {s : Session σ} (l : s.hub.Tracked safe r) (lr : Roll s)
    (ho : s.hub.queueOpen = true) (hr : s.hub.reachable = true) {header : Kernel.InHeader}
    (items : List Kernel.ForgetOne)
    (hold : safe → header.unique = r.unique → ¬s.hub.Unanswered r) :
    (s.dispatchForgets srv header items).hub.Tracked safe r := by
  induction items generalizing s with
  | nil => exact l
  | cons i items ih =>
    have hs := steady_dispatch srv s header (.forget i.nodeid i.nlookup)
    refine ih ?_ (roll_dispatch lr ho hr header _) (hs.queueOpen.trans ho)
      (hs.reachable.trans hr) ?_
    · exact tracked_dispatch l lr ho hr hold fun _ _ hk => by cases hk
    · exact fun hsafe he hu => hold hsafe he (unanswered_of_forget lr rfl hu)

/-! ## Frames -/

theorem ordersIn_of_message? {x : Receipt σ} {header : Kernel.InHeader} {m : Message}
    (hh : x.header? = some header) (hm : x.message? = some m) :
    ordersIn x.session.hub.minor x.frame = m.orders header := by
  unfold Receipt.message? at hm
  rw [hh] at hm
  have hread : readFrame? x.session.hub.minor x.frame = some (header, m) := by
    unfold Receipt.header? at hh
    cases hd : decodeHeader x.frame with
    | error e => simp [hd, Except.toOption] at hh
    | ok header' =>
      obtain rfl : header' = header := by simpa [hd, Except.toOption] using hh
      simpa [readFrame?, hd] using hm
  unfold ordersIn
  rw [hread]

theorem message?_of_operation? {x : Receipt σ} {op : Operation} (h : x.operation? = some op) :
    x.message? = some (.operation op) := by
  unfold Receipt.operation? at h
  split at h
  · rename_i op' hm
    split at h
    · cases h
      exact hm
    · cases h
  · cases h

/-- A frame leaves the request where it is, if its number is not used for another. -/
theorem tracked_handled {x : Receipt σ} {s' : Session σ} {ending : Option Ending}
    (hx : Handled srv x s' ending) (l : x.session.hub.Tracked safe r) (lr : Roll x.session)
    (ho : x.session.hub.queueOpen = true) (hr : x.session.hub.reachable = true)
    (hfree : safe → ¬x.Reuses r.unique) : s'.hub.Tracked safe r := by
  have hnot {header : Kernel.InHeader} {m : Message} (hh : x.header? = some header)
      (hm : x.message? = some m) (hrun : x.session.hub.state = .running) (o : Order)
      (hmem : o ∈ m.orders header) (hsafe : safe) (hu : o.unique = r.unique) :
      x.session.hub.Free r.unique := by
    apply Decidable.byContradiction
    intro hbusy
    exact hfree hsafe ⟨hrun, ⟨o, ordersIn_of_message? hh hm ▸ hmem, hu⟩, hbusy⟩
  have hdone (h : x.session.hub.Free r.unique) : ¬x.session.hub.Unanswered r :=
    fun hu => h r hu.1 rfl hu.2.2
  cases hx with
  | dropped _ ha => exact l.alike ha.hub
  | @refused t header e _ _ _ ha _ =>
    have lt := l.alike ha.hub
    exact lt.congr (Hub.called_congr (Hub.send_calls _ _)) (Hub.send_pending _ _)
      fun q => Hub.progress_congr (Hub.send_slots _ _) q
  | @forgotten header items hh _ hrun hm =>
    cases items with
    | nil => exact l
    | cons i items =>
      refine tracked_dispatchForgets l lr ho hr (i :: items) fun hsafe he => hdone ?_
      exact hnot hh hm hrun (.ofHeader header (.forget i.nodeid i.nlookup)) List.mem_cons_self
        hsafe he
  | @dispatched header op hh _ hop hrun _ _ =>
    have hthis := hnot hh (message?_of_operation? hop) hrun (.ofHeader header op)
      List.mem_cons_self
    exact tracked_dispatch l lr ho hr (fun hsafe he => hdone (hthis hsafe he))
      fun hsafe he _ => hthis hsafe he
  | @interrupted target handle _ _ =>
    have ha := Hub.alike_interrupt x.session.hub handle
    exact l.congr (Hub.called_congr ha.calls) ha.pending
      fun q => Hub.progress_interrupt _ handle q
  | dismissed _ _ _ _ => exact l
  | @greeted header init _ _ _ _ =>
    obtain ⟨state, connection, f, ha, -, -, -⟩ := handshake_spec srv header.unique init ho
    have hc := Hub.calls_record { x.session.hub with state, connection } (.sent f)
    exact l.congr (Hub.called_congr ((ha.hub.calls.trans hc).trans (List.append_nil _)))
      ha.hub.pending fun q => Hub.progress_congr ha.hub.slots q

/-- An interrupt either finds the request that its number leads to, or is turned down. -/
theorem handleFrame_of_interrupt (srv : Server σ) {x : Receipt σ} {target : UInt64}
    (hm : x.message? = some (.interrupt target)) (hrun : x.session.hub.state = .running) :
    ∃ u, x.unique? = some u ∧ x.session.handleFrame srv x.frame =
      match x.session.hub.pending.get? target with
      | some handle => ({ x.session with hub := x.session.hub.interrupt handle }, none)
      | none => (x.session.sendErrno u .eagain, none) := by
  obtain ⟨header, hh, hframe⟩ := read_of_message? srv hm
  refine ⟨header.unique, unique?_of_header? hh, ?_⟩
  rw [hframe]
  unfold handleMessage Session.interrupt
  simp only [hrun, if_true]
  cases x.session.hub.pending.get? target <;> rfl

/-- One frame. The number may be used for another by the frame that settles the request,
since then nothing is left to say about it. -/
theorem tracked_handleFrame {s : Session σ} {frame : Bytes} (l : s.hub.Tracked True r)
    (lr : Roll s) (ho : s.hub.queueOpen = true) (hr : s.hub.reachable = true)
    (hkeeps : (s.handleFrame srv frame).1.hub.Unanswered r →
      ¬Receipt.Reuses r.unique ⟨s, frame⟩) :
    (s.handleFrame srv frame).1.hub.Tracked True r := by
  have hbefore : s.hub.Tracked ((s.handleFrame srv frame).1.hub.Unanswered r) r :=
    ⟨l.listed, fun _ => l.alone trivial⟩
  have hafter := tracked_handled (handled srv s frame) hbefore lr ho hr hkeeps
  exact ⟨hafter.listed, fun _ hu => hafter.alone hu hu⟩

/-! ## Courses -/

theorem Course.tracked {s s' : Session σ} {xs : List (Receipt σ)} (c : Course srv s xs s')
    (l : s.hub.Tracked True r) (lr : Roll s) (ho : s.hub.queueOpen = true)
    (hr : s.hub.reachable = true)
    (hkeeps : ∀ x ∈ xs, (x.session.handleFrame srv x.frame).1.hub.Unanswered r →
      ¬x.Reuses r.unique) : s'.hub.Tracked True r := by
  induction c with
  | refl => exact l
  | @frame xs s' s'' frame d h ih =>
    have hd := (d.onward ho).1
    have hframe := tracked_handleFrame (ih fun x hx => hkeeps x (List.mem_append_left _ hx))
      (d.roll lr ho hr) (hd.queueOpen.trans ho) (hd.reachable.trans hr)
      (hkeeps ⟨s', frame⟩ (List.mem_append_right _ List.mem_cons_self))
    rwa [h] at hframe
  | answer d place a ih =>
    have hd := (d.onward ho).1
    exact tracked_answerKept (ih hkeeps) (d.roll lr ho hr) (hd.queueOpen.trans ho)
      (hd.reachable.trans hr) place a
  | task d handle ih =>
    have hd := (d.onward ho).1
    exact tracked_runTask (ih hkeeps) (d.roll lr ho hr) (hd.queueOpen.trans ho)
      (hd.reachable.trans hr) handle
  | quiet _ h ih => exact (ih hkeeps).alike h.hub

theorem tracked_start (user : σ) (r : Request) : (start user).hub.Tracked True r := by
  refine ⟨⟨.nil, ?_⟩, ?_⟩
  · intro p hp
    cases hp
  · intro _ hu
    cases hu.1

theorem Ends.tracked {user : σ} {s : Session σ} {xs : List (Receipt σ)} {ending : Ending}
    (e : Ends srv (start user) xs s ending)
    (hkeeps : ∀ x ∈ xs, (x.session.handleFrame srv x.frame).1.hub.Unanswered r →
      ¬x.Reuses r.unique) : s.hub.Tracked True r := by
  cases e with
  | outside c _ => exact c.tracked (tracked_start user r) (roll_start user) rfl rfl hkeeps
  | @frame xs s' s'' frame _ c h =>
    have hc := (c.onward (open_start user).queueOpen).1
    have hbefore := c.tracked (tracked_start user r) (roll_start user) rfl rfl
      fun x hx => hkeeps x (List.mem_append_left _ hx)
    have hframe := tracked_handleFrame hbefore (c.roll (roll_start user) rfl rfl) hc.queueOpen
      hc.reachable (hkeeps ⟨s', frame⟩ (List.mem_append_right _ List.mem_cons_self))
    rwa [h] at hframe

/-- The farewell touches only requests that it answers. -/
theorem tracked_dismissed (srv : Server σ) {s : Session σ} (l : s.hub.Tracked True r)
    (lr : Roll s) (ho : s.hub.queueOpen = true) (hr : s.hub.reachable = true) :
    (s.dismissed srv).hub.Tracked True r := by
  obtain ⟨t, ht, c⟩ := parting srv s
  have lt : t.hub.Tracked True r :=
    l.congr (Hub.called_congr ht.calls) ht.pending fun q => Hub.progress_congr ht.slots q
  exact c.tracked lt (roll_parting lr ht) (ht.queueOpen.trans ho) (ht.reachable.trans hr)
    fun x hx => by cases hx

/-! ## The end -/

/-- Of the frames that are left to the end, one tells the kernel that the request had no
answer. -/
theorem count_closing_of_tracked (drain : Drain) {h : Hub} (l : h.Tracked True r)
    (hu : h.Unanswered r) (ending : Ending) :
    ((drain.order h.pending).map (fun p => Frame.ofErrno p.1 .enotconn) ++
      lastAnswer ending).count (.ofErrno r.unique .enotconn) = 1 := by
  have hlast : (lastAnswer ending).count (.ofErrno r.unique .enotconn) = 0 := by
    unfold lastAnswer
    split
    · simp [Frame.success, Frame.ofErrno, Errno.enotconn]
    · rfl
  have hkeys : (fun p : UInt64 × Nat =>
      Frame.ofErrno p.1 .enotconn == Frame.ofErrno r.unique .enotconn) =
        fun p => decide (p.1 = r.unique) := by
    funext p
    rw [Bool.eq_iff_iff, beq_iff_eq, decide_eq_true_iff]
    exact ⟨congrArg Frame.unique, congrArg (Frame.ofErrno · .enotconn)⟩
  rw [List.count_append, hlast, List.count, List.countP_map]
  show (drain.order h.pending).countP (fun p => Frame.ofErrno p.1 .enotconn == _) + 0 = 1
  rw [hkeys, drain.countP_order, KeyedList.countP_key l.listed.sorted, l.tracks hu]
  rfl

/-! ## The law -/

/-- From the call with a request to its answer, whatever is received, answered or let go,
the session finds the request by its number, unless the number is used for another while
a request waits with it. An interrupt of the number then reaches the request. If it is
still unanswered when the file system has said goodbye, the kernel is told once that the
connection is gone. -/
theorem a_request_is_found_until_its_number_is_used_again (srv : Server σ) (user : σ)
    (inputs : List Input) (r : Request) (hkeeps : (start user).KeepsNumber srv inputs r) :
    (((start user).run srv inputs).result = none →
      ((start user).run srv inputs).hub.Tracks r) ∧
    (∀ x ∈ (start user).receipts srv inputs, x.session.hub.Tracks r ∧
      (x.session.hub.state = .running → x.message? = some (.interrupt r.unique) →
        x.session.hub.Unanswered r →
          let (s, ending) := x.session.handleFrame srv x.frame
          ending = none ∧ s.hub.isInterrupted r = true ∧ s.hub.queue = x.session.hub.queue)) ∧
    ∀ s ending, (start user).endOf srv inputs = some (s, ending) →
      s.hub.Tracks r ∧ (s.dismissed srv).hub.Tracks r ∧
      ((s.dismissed srv).hub.Unanswered r →
        ∃ rest, ((start user).run srv inputs).hub.queue = (s.dismissed srv).hub.queue ++ rest ∧
          rest.count (.ofErrno r.unique .enotconn) = 1) := by
  refine ⟨?_, ?_, ?_⟩
  · intro hr
    exact ((course_run hr).tracked (tracked_start user r) (roll_start user) rfl rfl hkeeps).tracks
  · intro x hx
    obtain ⟨xs, ys, hreceipts⟩ := List.append_of_mem hx
    have c := course_before_receipt hreceipts
    have l := c.tracked (tracked_start user r) (roll_start user) rfl rfl fun y hy =>
      hkeeps y (hreceipts ▸ List.mem_append_left _ hy)
    refine ⟨l.tracks, ?_⟩
    intro hrun hm hu
    have lr := c.roll (roll_start user) rfl rfl
    obtain ⟨_, _, hframe⟩ := handleFrame_of_interrupt srv hm hrun
    rw [l.tracks hu] at hframe
    rw [hframe]
    exact ⟨rfl, Hub.isInterrupted_interrupt (Hub.Roll.lt_of_called lr hu.1),
      (Hub.alike_interrupt _ _).queue⟩
  · intro s ending he
    rcases run_cases srv (s := start user) rfl (open_start user) inputs with
      ⟨hnone, -⟩ | ⟨s', ending', hsome, hends, hover⟩
    · rw [hnone] at he
      cases he
    · rw [hsome] at he
      cases he
      have o := hends.open (open_start user)
      have l := hends.tracked hkeeps
      have lr := hends.roll (roll_start user) rfl rfl
      have ld := tracked_dismissed srv l lr o.queueOpen o.reachable
      have lrd := roll_dismissed srv lr o.queueOpen o.reachable
      refine ⟨l.tracks, ld.tracks, ?_⟩
      intro hu
      refine ⟨_, ?_, count_closing_of_tracked srv.drain ld hu ending⟩
      rw [(hover.later.closed (windDown_closed s ending)).2, queue_windDown_closing o.queueOpen,
        Hub.queue_closePending srv.drain ld.listed.sorted (fun _ => ld.listed.slot_of_pending lrd)
          ((queueOpen_dismissed srv s).trans o.queueOpen), List.append_assoc]

/-- Lookups as they come with `aboutRoot`, by handle and number. -/
def plainLookup (handle : Nat) (unique : UInt64) : Request :=
  { handle, unique, uid := 0, gid := 0, pid := 0, kind := .lookup, limit := none }

/-- Of two lookups that are kept, each has a number of its own: the first is found when it
is interrupted, and the second at the end. -/
theorem kept_lookups_are_found :
    ((start ()).KeepsNumber keeper keptLookups (plainLookup 0 2) ∧
      ∃ x ∈ (start ()).receipts keeper keptLookups, x.message? = some (.interrupt 2) ∧
        (x.session.handleFrame keeper x.frame).1.hub.isInterrupted (plainLookup 0 2) = true) ∧
    (start ()).KeepsNumber keeper keptLookups (plainLookup 1 3) ∧
      ∃ (s : Session Unit) (rest : List Frame),
        ((start ()).run keeper keptLookups).hub.queue =
          (s.dismissed keeper).hub.queue ++ rest ∧ rest.count (.ofErrno 3 .enotconn) = 1 := by
  have hfirst : (start ()).KeepsNumber keeper keptLookups (plainLookup 0 2) := by decide +kernel
  have hsecond : (start ()).KeepsNumber keeper keptLookups (plainLookup 1 3) := by decide +kernel
  obtain ⟨-, hinterrupt, -⟩ :=
    a_request_is_found_until_its_number_is_used_again keeper () keptLookups _ hfirst
  obtain ⟨-, -, hend⟩ :=
    a_request_is_found_until_its_number_is_used_again keeper () keptLookups _ hsecond
  refine ⟨⟨hfirst, ?_⟩, hsecond, ?_⟩
  · have hreceived : ∃ x ∈ (start ()).receipts keeper keptLookups,
        x.session.hub.state = .running ∧ x.message? = some (.interrupt 2) ∧
          x.session.hub.Unanswered (plainLookup 0 2) := by decide +kernel
    obtain ⟨x, hx, hrun, hm, hu⟩ := hreceived
    exact ⟨x, hx, hm, ((hinterrupt x hx).2 hrun hm hu).2.1⟩
  · have hended : ∃ p, (start ()).endOf keeper keptLookups = some p ∧
        (p.1.dismissed keeper).hub.Unanswered (plainLookup 1 3) := by
      have hsome : ((start ()).endOf keeper keptLookups).any fun p =>
          decide ((p.1.dismissed keeper).hub.Unanswered (plainLookup 1 3)) := by decide +kernel
      obtain ⟨p, hp, hu⟩ := (Option.any_eq_true _ _).mp hsome
      exact ⟨p, hp, of_decide_eq_true hu⟩
    obtain ⟨⟨s, ending⟩, hs, hu⟩ := hended
    obtain ⟨rest, hrest⟩ := (hend s ending hs).2.2 hu
    exact ⟨s, rest, hrest⟩

/-- A file system that keeps every request and never answers by itself. -/
def silent : Server Unit where
  table := { handler := fun _ => some fun user _ _ => (user, { use := .keep }) }

/-- Two lookups with one number, of which the second is answered. -/
def oneNumberTwice : List Input :=
  [.frames [proposal, aboutRoot .lookup 2 [97, 0], aboutRoot .lookup 2 [98, 0]],
    .answer 1 (.reply (.error .enoent))]

/-- The answer to the second lookup takes the number out of the map, and the first is lost
to interrupts and to the end. -/
theorem a_number_used_twice_loses_a_request :
    let s := (start ()).run silent oneNumberTwice
    let t := s.run silent
      [.frames [aboutRoot .interrupt 3 (Wire.encode (⟨2⟩ : Kernel.InterruptIn))], .close]
    s.hub.state = .running ∧ s.hub.Unanswered (plainLookup 0 2) ∧
      ¬s.hub.Tracks (plainLookup 0 2) ∧ .ofErrno 3 .eagain ∈ t.hub.queue ∧
      t.hub.isInterrupted (plainLookup 0 2) = false ∧ .ofErrno 2 .enotconn ∉ t.hub.queue := by
  decide +kernel

end Session

end Fuse
