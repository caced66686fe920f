-- Interrupts are delivered exactly. The map of pending requests holds just the requests
-- that are unanswered, whatever came and went before. So an interrupt reaches the request
-- that it names or nobody, and the marks tell who was reached.
import Fuse.Proofs.Marks
import Fuse.Proofs.Muting

namespace Fuse

namespace Hub

variable {h : Hub} {r : Request} {received : List UInt64} {held : List Request}

/-! ## What is pending -/

/-- The numbers in the map are those of the unanswered requests. -/
theorem pending_iff (l : Ledger received held h) (lr : Roll held h) {u : UInt64} {i : Nat} :
    h.pending.get? u = some i ↔ ∃ r, h.Unanswered r ∧ r.unique = u ∧ r.handle = i := by
  constructor
  · intro hp
    obtain ⟨r, hr, hk, hu, hi⟩ := l.owed u i hp
    obtain ⟨op, hc⟩ := lr.called r hr
    obtain ⟨s, hs, -, hsp⟩ := l.waiting r hr
    have hprogress : h.progress r = .pending := by
      unfold progress slot?
      rw [hs]
      exact hsp
    exact ⟨r, ⟨mem_called.mpr ⟨op, hc⟩, hk, hprogress⟩, hu, hi⟩
  · rintro ⟨r, ⟨hr, hk, hp⟩, rfl, rfl⟩
    obtain ⟨op, hc⟩ := mem_called.mp hr
    rw [l.tracked r (lr.outstanding r op hc hp), if_pos hk]

theorem mem_pending_iff (l : Ledger received held h) (lr : Roll held h) (hr : r ∈ h.called) :
    r.handle ∈ h.pending.map (·.2) ↔ h.Unanswered r := by
  constructor
  · intro hmem
    obtain ⟨p, hp, hi⟩ := List.mem_map.mp hmem
    have hget := (KeyedList.get?_eq_some_iff l.sorted).mpr hp
    obtain ⟨q, hq, -, hqi⟩ := (pending_iff l lr).mp hget
    rwa [lr.eq_of_handle hr hq.1 (hi.symm.trans hqi.symm)]
  · intro hu
    exact List.mem_map.mpr
      ⟨(r.unique, r.handle), KeyedList.mem_of_get? ((pending_iff l lr).mpr ⟨r, hu, rfl, rfl⟩), rfl⟩

theorem Later.called {h' : Hub} (l : Later h h') (hr : r ∈ h.called) : r ∈ h'.called :=
  (l.calls.map Prod.fst).subset hr

end Hub

namespace Session

variable {σ : Type} {srv : Server σ} {user : σ} {r : Request} {xs ys : List (Receipt σ)}
  {x : Receipt σ} {s : Session σ}

/-! ## Whom interrupts reach -/

/-- The handle that an interrupt hits is that of the request that it reaches, now and at
every later moment. -/
theorem hits_iff (front : Course srv (start user) xs x.session)
    (hn : (xs.filterMap Receipt.unique?).Nodup) (hl : Hub.Later x.session.hub s.hub)
    (lr : Roll s) (hr : r ∈ s.hub.called) : Hits x r.handle ↔ x.Reaches r := by
  have hpending (u : UInt64) (i : Nat) : x.session.hub.pending.get? u = some i ↔
      ∃ q, x.session.hub.Unanswered q ∧ q.unique = u ∧ q.handle = i :=
    Hub.pending_iff (front.balanced hn).ledger (front.roll (roll_start user) rfl rfl)
  constructor
  · rintro ⟨target, ht, hp⟩
    obtain ⟨q, hq, rfl, hi⟩ := (hpending _ _).mp hp
    obtain rfl : q = r := Hub.Roll.eq_of_handle lr (hl.called hq.1) hr hi
    exact ⟨ht, hq⟩
  · rintro ⟨ht, hu⟩
    exact ⟨r.unique, ht, (hpending _ _).mpr ⟨r, hu, rfl, rfl⟩⟩

/-- Before the end, a request knows of the interrupts that reached it. -/
theorem Ends.interrupted_iff {ending : Ending} (e : Ends srv (start user) xs s ending)
    (hn : (xs.filterMap Receipt.unique?).Nodup) (hr : r ∈ s.hub.called) :
    s.hub.isInterrupted r = true ↔ ∃ x ∈ xs, x.Reaches r := by
  rw [Hub.isInterrupted_eq, (e.marked r.handle).2]
  refine exists_congr fun x => and_congr_right fun hx => ?_
  obtain ⟨before, after, rfl⟩ := List.append_of_mem hx
  obtain ⟨front, back⟩ := e.split rfl
  have ho := (front.open (open_start user)).queueOpen
  exact hits_iff front (nodup_front hn) (back.onward ho).1.toLater
    (e.roll (roll_start user) rfl rfl) hr

theorem Course.interrupted_iff (c : Course srv (start user) xs s)
    (hn : (xs.filterMap Receipt.unique?).Nodup) (hr : r ∈ s.hub.called) :
    s.hub.isInterrupted r = true ↔ ∃ x ∈ xs, x.Reaches r := by
  -- the session may be told to stop at any moment of its course
  have e : Ends srv (start user) xs s (.ok .shutdown) := .outside c nofun
  exact e.interrupted_iff hn hr

/-! ## Whole runs -/

/-- Whether a request is interrupted or closed after a run. -/
theorem marks_run {inputs : List Input}
    (hn : (((start user).receipts srv inputs).filterMap Receipt.unique?).Nodup)
    (hr : r ∈ ((start user).run srv inputs).hub.called) :
    (((start user).run srv inputs).hub.isInterrupted r = true ↔
      (∃ x ∈ (start user).receipts srv inputs, x.Reaches r) ∨
        ((start user).run srv inputs).hub.progress r = .closed) ∧
    (((start user).run srv inputs).hub.progress r = .closed ↔
      ∃ s ending, (start user).endOf srv inputs = some (s, ending) ∧
        (s.dismissed srv).hub.Unanswered r) := by
  rcases run_cases srv (s := start user) rfl (open_start user) inputs with
    ⟨hnone, c⟩ | ⟨t, ending, hsome, e, hover⟩
  · have lr := c.roll (roll_start user) rfl rfl
    have hopen : ((start user).run srv inputs).hub.progress r ≠ .closed := by
      rw [Ne, Hub.closed_iff (Hub.Roll.lt_of_called lr hr), (c.marked r.handle).1]
      exact Bool.false_ne_true
    simp [c.interrupted_iff hn hr, hopen, hnone]
  · have o := e.open (open_start user)
    have l := (e.balanced hn).ledger
    have lr := e.roll (roll_start user) rfl rfl
    obtain ⟨hcalled, hmarks⟩ := marks_of_endOf hsome l o.queueOpen o.reachable
    rw [hcalled] at hr
    have hlater := (later_windDown srv t ending).trans hover.later
    obtain ⟨slot, hslot, -⟩ :=
      hlater.slot r.handle _ (List.getElem?_eq_getElem (Hub.Roll.lt_of_called lr hr))
    have hlt := (List.getElem?_eq_some_iff.mp hslot).1
    have hwaits : r.handle ∈ (t.dismissed srv).hub.pending.map (·.2) ↔
        (t.dismissed srv).hub.Unanswered r :=
      Hub.mem_pending_iff (ledger_dismissed srv l o.queueOpen o.reachable).1
        (roll_dismissed srv lr o.queueOpen o.reachable) ((later_dismissed srv t).called hr)
    have hreached := e.interrupted_iff hn hr
    -- the end marks what is unanswered after the farewell, and leaves all other marks
    rw [Hub.isInterrupted_eq] at hreached ⊢
    rw [Hub.closed_iff hlt, hmarks]
    by_cases hu : (t.dismissed srv).hub.Unanswered r
    · rw [if_pos (hwaits.mpr hu)]
      simp [hsome, hu]
    · rw [if_neg (mt hwaits.mp hu), (e.marked r.handle).1, hreached]
      simp [hsome, hu]

/-! ## One interrupt -/

theorem delivered_interrupt (lr : Roll s) (hu : s.hub.Unanswered r) :
    Delivered r s { s with hub := s.hub.interrupt r.handle } := by
  have ha := Hub.alike_interrupt s.hub r.handle
  have hcalled : (s.hub.interrupt r.handle).called = s.hub.called := Hub.called_congr ha.calls
  have hstill := (Hub.unanswered_congr hcalled (Hub.progress_interrupt s.hub r.handle r)).mpr hu
  refine ⟨Hub.isInterrupted_interrupt (Hub.Roll.lt_of_called lr hu.1), hstill, ?_, ha.queue⟩
  intro i hi
  exact (congrArg (·[i]?) ha.slots).trans (Hub.updateSlot_of_ne s.hub hi _)

/-- A frame that was received has at most the answers that it is due. -/
theorem length_answers_le {inputs : List Input} {u : UInt64}
    (hn : (((start user).receipts srv inputs).filterMap Receipt.unique?).Nodup)
    (hx : x ∈ (start user).receipts srv inputs) (hu : x.unique? = some u) :
    (((start user).run srv inputs).hub.queue.filter fun f => decide (f.unique = u)).length ≤
      x.due := by
  rw [← List.countP_eq_length_filter, ← dueTo_of_mem hn hx hu]
  exact count_le_dueTo hn u

/-- The one answer to an interrupt that was turned down. -/
theorem answers_to_turnedDown {inputs : List Input} {u : UInt64} {t : Session σ}
    (hn : (((start user).receipts srv inputs).filterMap Receipt.unique?).Nodup)
    (hx : x ∈ (start user).receipts srv inputs) (hu : x.unique? = some u)
    (hframe : x.session.handleFrame srv x.frame = (t, none)) (hd : TurnedDown u x.session t) :
    (((start user).run srv inputs).hub.queue.filter fun f => decide (f.unique = u)) =
      [.ofErrno u .eagain] := by
  obtain ⟨xs, c⟩ := course_receipt hx
  have ct := c.frame hframe
  have hsound : Sound t :=
    Or.inl ⟨(ct.onward (open_start user).queueOpen).2, ct.open (open_start user)⟩
  obtain ⟨rest, hrun⟩ := run_of_onward hx hframe
  have hsent : Frame.ofErrno u .eagain ∈ ((start user).run srv inputs).hub.queue := by
    rw [hrun]
    apply (sound_run srv hsound rest).2.queue.subset
    rw [hd.queue]
    exact List.mem_append_right _ List.mem_cons_self
  have hmem : Frame.ofErrno u .eagain ∈
      ((start user).run srv inputs).hub.queue.filter fun f => decide (f.unique = u) :=
    List.mem_filter.mpr ⟨hsent, decide_eq_true rfl⟩
  have hone : x.due ≤ 1 := by
    unfold Receipt.due
    split <;> omega
  have hlength := Nat.le_trans (length_answers_le hn hx hu) hone
  obtain ⟨f, hf⟩ := List.length_eq_one_iff.mp
    (Nat.le_antisymm hlength (List.length_pos_of_mem hmem))
  rw [hf] at hmem ⊢
  rw [List.mem_singleton.mp hmem]

/-- An interrupt reaches the one request that it names, or the kernel is told that there
is none. -/
theorem interrupt_received {inputs : List Input} {target : UInt64}
    (hn : (((start user).receipts srv inputs).filterMap Receipt.unique?).Nodup)
    (hx : x ∈ (start user).receipts srv inputs) (ht : x.target? = some target) :
    ∃ u s, x.unique? = some u ∧ x.session.handleFrame srv x.frame = (s, none) ∧
      (∀ r, x.session.hub.Unanswered r → r.unique = target → Delivered r x.session s ∧
        ((start user).run srv inputs).hub.queue.filter (fun f => decide (f.unique = u)) = []) ∧
      ((∀ r, x.session.hub.Unanswered r → r.unique ≠ target) → TurnedDown u x.session s ∧
        ((start user).run srv inputs).hub.queue.filter (fun f => decide (f.unique = u)) =
          [.ofErrno u .eagain]) := by
  obtain ⟨before, after, hreceipts⟩ := List.append_of_mem hx
  have c := course_before_receipt hreceipts
  have lr := c.roll (roll_start user) rfl rfl
  have hpending (u : UInt64) (i : Nat) : x.session.hub.pending.get? u = some i ↔
      ∃ r, x.session.hub.Unanswered r ∧ r.unique = u ∧ r.handle = i :=
    Hub.pending_iff (c.balanced (nodup_front (hreceipts ▸ hn))).ledger lr
  obtain ⟨hm, hrun⟩ := target?_eq_some.mp ht
  obtain ⟨u, hu, hframe⟩ := handleFrame_of_interrupt srv hm hrun
  cases hp : x.session.hub.pending.get? target with
  | some handle =>
    rw [hp] at hframe
    have hdue : x.due = 0 := by simp [Receipt.due, Receipt.interrupts, hm, hrun, hp]
    have hnone := Nat.le_zero.mp (hdue ▸ length_answers_le hn hx hu)
    obtain ⟨q, hq, hqu, rfl⟩ := (hpending _ _).mp hp
    refine ⟨u, _, hu, hframe, ?_, fun hother => absurd hqu (hother q hq)⟩
    intro r hr hru
    have hget := (hpending _ _).mpr ⟨r, hr, hru, rfl⟩
    rw [hp, Option.some.injEq] at hget
    obtain rfl : q = r := Hub.Roll.eq_of_handle lr hq.1 hr.1 hget
    exact ⟨delivered_interrupt lr hq, List.eq_nil_of_length_eq_zero hnone⟩
  | none =>
    rw [hp] at hframe
    have ho := (c.open (open_start user)).queueOpen
    have hdown : TurnedDown u x.session (x.session.sendErrno u .eagain) :=
      ⟨Hub.send_slots _ _, Hub.send_queue _ _ ho⟩
    refine ⟨u, _, hu, hframe, ?_, fun _ => ⟨hdown, answers_to_turnedDown hn hx hu hframe hdown⟩⟩
    intro r hr hru
    have hget := (hpending _ _).mpr ⟨r, hr, hru, rfl⟩
    rw [hp] at hget
    cases hget

/-! ## The law -/

/-- In every run whose frames have different numbers, an interrupt that a running session
receives marks the request that it names, if that one was handed to a handler and the
kernel still waits for the answer, and nothing is ever sent for the interrupt. Otherwise
no request is touched, and the interrupt is turned down with one error under its own
number. So, at any time, those requests are marked that an interrupt reached, and at the
end also those that the session had to close. And where no handler waits for
interrupts, a run goes as it would without them. -/
theorem interrupts_reach_whom_they_name (srv : Server σ) (user : σ) (inputs : List Input)
    (hn : (((start user).receipts srv inputs).filterMap Receipt.unique?).Nodup) :
    (∀ x ∈ (start user).receipts srv inputs, ∀ target, x.target? = some target →
      ∃ u s, x.unique? = some u ∧ x.session.handleFrame srv x.frame = (s, none) ∧
        (∀ r, x.session.hub.Unanswered r → r.unique = target → Delivered r x.session s ∧
          ((start user).run srv inputs).hub.queue.filter (fun f => decide (f.unique = u)) = []) ∧
        ((∀ r, x.session.hub.Unanswered r → r.unique ≠ target) → TurnedDown u x.session s ∧
          ((start user).run srv inputs).hub.queue.filter (fun f => decide (f.unique = u)) =
            [.ofErrno u .eagain])) ∧
    (∀ xs x ys, (start user).receipts srv inputs = xs ++ x :: ys → ∀ r ∈ x.session.hub.called,
      x.session.hub.isInterrupted r = true ↔ ∃ y ∈ xs, y.Reaches r) ∧
    (∀ r ∈ ((start user).run srv inputs).hub.called,
      (((start user).run srv inputs).hub.isInterrupted r = true ↔
        (∃ y ∈ (start user).receipts srv inputs, y.Reaches r) ∨
          ((start user).run srv inputs).hub.progress r = .closed) ∧
      (((start user).run srv inputs).hub.progress r = .closed ↔
        ∃ s ending, (start user).endOf srv inputs = some (s, ending) ∧
          (s.dismissed srv).hub.Unanswered r)) ∧
    (srv.Heedless → Undisturbed (interrupters ((start user).receipts srv inputs))
      ((start user).run srv inputs)
      ((start user).run srv (inputs.map Input.uninterrupted))) := by
  refine ⟨fun x hx target => interrupt_received hn hx, ?_, fun r => marks_run hn,
    fun hsrv => undisturbed_run hsrv user inputs hn⟩
  intro xs x ys hreceipts r hr
  exact (course_before_receipt hreceipts).interrupted_iff (nodup_front (hreceipts ▸ hn)) hr

/-- An interrupt of the first of two lookups that are kept, an interrupt of nobody, and the
end. -/
def reachedAndMissed : List Input :=
  [.frames
    [proposal, aboutRoot .lookup 2 [97, 0], aboutRoot .lookup 3 [98, 0],
      aboutRoot .interrupt 4 (Wire.encode (⟨2⟩ : Kernel.InterruptIn)),
      aboutRoot .interrupt 5 (Wire.encode (⟨9⟩ : Kernel.InterruptIn)),
      aboutRoot .destroy 6 []]]

/-- The first lookup is marked by the interrupt and the second by the end, nobody answers
the first interrupt, and the second is turned down. Without the two, nothing else is
different. -/
theorem one_interrupt_reaches_and_one_misses :
    (((start ()).receipts keeper reachedAndMissed).filterMap Receipt.unique?).Nodup ∧
      keeper.Heedless ∧
      ((start ()).run keeper reachedAndMissed).hub.isInterrupted (plainLookup 0 2) = true ∧
      ((start ()).run keeper reachedAndMissed).hub.isInterrupted (plainLookup 1 3) = true ∧
      (∃ s ending, (start ()).endOf keeper reachedAndMissed = some (s, ending) ∧
        (s.dismissed keeper).hub.Unanswered (plainLookup 1 3)) ∧
      ((start ()).run keeper reachedAndMissed).hub.queue.filter
        (fun f => decide (f.unique = 4)) = [] ∧
      ((start ()).run keeper reachedAndMissed).hub.queue.filter
        (fun f => decide (f.unique = 5)) = [.ofErrno 5 .eagain] ∧
      Undisturbed [4, 5] ((start ()).run keeper reachedAndMissed)
        ((start ()).run keeper (reachedAndMissed.map Input.uninterrupted)) := by
  have hn : (((start ()).receipts keeper reachedAndMissed).filterMap Receipt.unique?).Nodup := by
    decide +kernel
  have hheedless : keeper.Heedless := by
    intro kind handler hres user r op a
    cases hres
    exact nofun
  obtain ⟨hreceived, -, hmarks, hundisturbed⟩ :=
    interrupts_reach_whom_they_name keeper () reachedAndMissed hn
  have hreach : ∃ x ∈ (start ()).receipts keeper reachedAndMissed,
      x.unique? = some 4 ∧ x.Reaches (plainLookup 0 2) := by decide +kernel
  have hmiss : ∃ x ∈ (start ()).receipts keeper reachedAndMissed,
      x.unique? = some 5 ∧ x.target? = some 9 ∧
        ∀ r ∈ x.session.hub.called, x.session.hub.Unanswered r → r.unique ≠ 9 := by
    decide +kernel
  obtain ⟨x, hx, hxu, hxr⟩ := hreach
  obtain ⟨y, hy, hyu, hyt, hnobody⟩ := hmiss
  have hfirst := hmarks (plainLookup 0 2) (by decide +kernel)
  have hsecond := hmarks (plainLookup 1 3) (by decide +kernel)
  have hclosed : ((start ()).run keeper reachedAndMissed).hub.progress (plainLookup 1 3) =
      .closed := by decide +kernel
  refine ⟨hn, hheedless, hfirst.1.mpr (Or.inl ⟨x, hx, hxr⟩), hsecond.1.mpr (Or.inr hclosed),
    hsecond.2.mp hclosed, ?_, ?_, hundisturbed hheedless⟩
  · obtain ⟨u, s, hu, -, hreached, -⟩ := hreceived x hx 2 hxr.1
    rw [hxu] at hu
    cases hu
    exact (hreached (plainLookup 0 2) hxr.2 rfl).2
  · obtain ⟨u, s, hu, -, -, hmissed⟩ := hreceived y hy 9 hyt
    rw [hyu] at hu
    cases hu
    exact (hmissed fun r hr => hnobody r hr.1 hr).2

end Session

end Fuse
