-- How requests come to be marked, as interrupted or as closed. Only an interrupt that
-- finds its request leaves a mark before the end, and the end marks what is pending.
import Fuse.Proofs.Tracking
import Fuse.Session.Interrupts

namespace Fuse

namespace Hub

variable {h h' : Hub} {r q : Request}

/-! ## Marks -/

/-- Whether a request is interrupted, and whether it is closed. Handles that nobody has
are neither. -/
def marks (h : Hub) (i : Nat) : Bool × Bool :=
  ((h.slots[i]?).map fun s => (s.interrupted, decide (s.progress = .closed))).getD (false, false)

theorem isInterrupted_eq (h : Hub) (r : Request) : h.isInterrupted r = (h.marks r.handle).1 := by
  unfold isInterrupted marks slot?
  cases h.slots[r.handle]? <;> rfl

theorem closed_iff (hr : r.handle < h.slots.length) :
    h.progress r = .closed ↔ (h.marks r.handle).2 = true := by
  unfold progress marks slot?
  rw [List.getElem?_eq_getElem hr]
  simp

theorem marks_congr (hs : h'.slots = h.slots) : h'.marks = h.marks := by
  unfold marks
  rw [hs]

theorem marks_send (h : Hub) (f : Frame) : (h.send f).marks = h.marks :=
  marks_congr (send_slots h f)

/-- Only what waits is ever answered, so no mark goes away. -/
theorem marks_markAnswered (hp : h.progress q = .pending) : (h.markAnswered q).marks = h.marks := by
  funext i
  unfold marks markAnswered
  by_cases hi : i = q.handle
  · unfold progress slot? at hp
    rw [hi]
    cases hs : h.slots[q.handle]? with
    | none => simp [updateSlot, hs]
    | some s =>
      rw [hs] at hp
      have hpending : s.progress = .pending := hp
      simp [updateSlot_self hs, hpending]
  · rw [updateSlot_of_ne h hi]

theorem marks_answer (profile : Profile) (h : Hub) (q : Request) (a : Answer) :
    (h.answer profile q a).1.marks = h.marks := by
  by_cases hp : h.progress q = .pending
  · have hmarked := marks_markAnswered hp
    rcases answer_of_pending hp profile a with ⟨reply, -, ha⟩ | ⟨-, ha⟩
    · exact (marks_congr (ha.slots.trans (deliver_slots _ _ reply))).trans hmarked
    · exact (marks_congr ha.slots).trans hmarked
  · exact marks_congr (alike_answer hp profile a).slots

/-- A new request has no mark. -/
theorem marks_enrol (h : Hub) (header : Kernel.InHeader) (op : Operation) :
    (h.enrol header op).1.marks = h.marks := by
  funext i
  show ((h.slots ++ [{ unique := header.unique }])[i]?.map _).getD _ = _
  unfold marks
  by_cases hi : i < h.slots.length
  · rw [List.getElem?_append_left hi]
  · rw [List.getElem?_append_right (Nat.le_of_not_lt hi),
      List.getElem?_eq_none (Nat.le_of_not_lt hi)]
    cases i - h.slots.length <;> rfl

theorem marks_interrupt {i : Nat} (hi : i < h.slots.length) (j : Nat) :
    (h.interrupt i).marks j = if j = i then (true, (h.marks i).2) else h.marks j := by
  rw [marks_congr (alike_interrupt h i).slots]
  unfold marks
  by_cases hj : j = i
  · rw [hj, updateSlot_self (List.getElem?_eq_getElem hi), List.getElem?_eq_getElem hi]
    simp
  · rw [updateSlot_of_ne h hj, if_neg hj]

/-! ## Closing -/

theorem marks_closeOne (ho : h.queueOpen = true) {i : Nat} {s : Slot} (hs : h.slots[i]? = some s)
    (hp : s.progress = .pending) (j : Nat) :
    (h.closeOne i).marks j = if j = i then (true, true) else h.marks j := by
  obtain ⟨-, hclosed, hothers⟩ := closeOne_of_pending ho hs hp
  unfold marks
  by_cases hj : j = i
  · rw [hj, hclosed, if_pos rfl]
    rfl
  · rw [hothers j hj, if_neg hj]

theorem marks_closeAll {ps : List (UInt64 × Nat)} {h : Hub} (ho : h.queueOpen = true)
    (hs : ∀ p ∈ ps, ∃ s, h.slots[p.2]? = some s ∧ s.progress = .pending)
    (hn : (ps.map (·.2)).Nodup) (j : Nat) :
    (ps.foldl (fun h p => h.closeOne p.2) h).marks j =
      if j ∈ ps.map (·.2) then (true, true) else h.marks j := by
  induction ps generalizing h with
  | nil => rfl
  | cons p ps ih =>
    rw [List.map_cons, List.nodup_cons] at hn
    obtain ⟨s, hps, hpending⟩ := hs p List.mem_cons_self
    obtain ⟨-, -, hothers⟩ := closeOne_of_pending ho hps hpending
    rw [List.foldl_cons, ih ((steady_closeOne h p.2).queueOpen.trans ho) _ hn.2,
      marks_closeOne ho hps hpending, List.map_cons]
    · simp only [List.mem_cons]
      by_cases hj : j = p.2
      · rw [if_pos hj, if_pos (Or.inl hj), ite_self]
      · rw [if_neg hj]
        simp only [hj, false_or]
    · intro q hq
      obtain ⟨t, ht, htp⟩ := hs q (List.mem_cons_of_mem _ hq)
      have hne : q.2 ≠ p.2 := by
        intro he
        apply hn.1
        rw [← he]
        exact List.mem_map_of_mem hq
      exact ⟨t, (hothers q.2 hne).trans ht, htp⟩

/-- The end marks those requests that are in the map of pending requests. -/
theorem marks_closePending (drain : Drain) {received : List UInt64} {held : List Request}
    (l : Ledger received held h) (ho : h.queueOpen = true) (j : Nat) :
    (h.closePending drain).marks j =
      if j ∈ h.pending.map (·.2) then (true, true) else h.marks j := by
  have hslots : ∀ p ∈ drain.order h.pending,
      ∃ s, h.slots[p.2]? = some s ∧ s.progress = .pending := by
    intro p hp
    obtain ⟨s, hs, -, hpending⟩ := l.slot_of_pending ((drain.mem_order h.pending).mp hp)
    exact ⟨s, hs, hpending⟩
  have hapart := handles_apart drain l.sorted fun _ => l.slot_of_pending
  simp only [← (drain.handles_order h.pending).mem_iff]
  exact marks_closeAll (h := { h with pending := [] }) ho hslots hapart j

end Hub

namespace Session

variable {σ : Type} {srv : Server σ}

/-! ## What leaves no mark -/

theorem marks_answerKept (srv : Server σ) (s : Session σ) (place : Nat) (a : Answer) :
    (s.answerKept srv place a).1.hub.marks = s.hub.marks := by
  rcases answerKept_cases srv s place a with h | ⟨r, -, h⟩
  · rw [h]
  · rw [h]
    exact Hub.marks_answer _ _ _ _

theorem marks_runTask (srv : Server σ) (s : Session σ) (handle : Nat) :
    (s.runTask srv handle).hub.marks = s.hub.marks := by
  rcases runTask_cases srv s handle with h | ⟨t, -, h⟩
  · rw [h]
  · rw [h]
    exact Hub.marks_answer _ _ _ _

theorem marks_use (s : Session σ) (r : Request) (u : Use) :
    (s.use srv r u).1.hub.marks = s.hub.marks := by
  cases u with
  | answer a => exact Hub.marks_answer _ _ _ _
  | keep => rfl
  | onInterrupt a => exact Hub.marks_congr (Hub.alike_wake _ _).slots

theorem marks_dispatch (srv : Server σ) (s : Session σ) (header : Kernel.InHeader)
    (op : Operation) : (s.dispatch srv header op).hub.marks = s.hub.marks := by
  have henrol := Hub.marks_enrol s.hub header op
  rcases dispatch_cases srv s header op with ⟨a, h⟩ | ⟨t, u, ht, hu⟩
  · rw [h]
    exact (Hub.marks_answer _ _ _ _).trans henrol
  · have hcalled : t.hub.marks = (s.hub.enrol header op).1.marks := Hub.marks_congr ht.hub.slots
    rw [Hub.marks_congr hu.hub.slots, marks_use, hcalled, henrol]

theorem marks_dispatchForgets (s : Session σ) (header : Kernel.InHeader)
    (items : List Kernel.ForgetOne) :
    (s.dispatchForgets srv header items).hub.marks = s.hub.marks := by
  induction items generalizing s with
  | nil => rfl
  | cons i items ih => exact (ih _).trans (marks_dispatch srv s header _)

theorem target?_eq_some {x : Receipt σ} {target : UInt64} : x.target? = some target ↔
    x.message? = some (.interrupt target) ∧ x.session.hub.state = .running := by
  unfold Receipt.target?
  split
  · rename_i target' hm
    split
    · rename_i hr
      simp [hm, hr]
    · rename_i hr
      simp [hr]
  · rename_i hm
    constructor
    · intro h
      cases h
    · intro h
      exact absurd h.1 (hm target)

/-- A frame that interrupts nothing leaves no mark. -/
theorem marks_handled {x : Receipt σ} {s' : Session σ} {ending : Option Ending}
    (hx : Handled srv x s' ending) (ho : x.session.hub.queueOpen = true)
    (ht : x.target? = none) : s'.hub.marks = x.session.hub.marks := by
  cases hx with
  | dropped _ ha => exact Hub.marks_congr ha.hub.slots
  | refused _ _ _ ha => exact (Hub.marks_send _ _).trans (Hub.marks_congr ha.hub.slots)
  | forgotten _ _ _ => exact marks_dispatchForgets _ _ _
  | dispatched _ _ _ _ _ _ => exact marks_dispatch _ _ _ _
  | @interrupted target handle hi hp hm =>
    have hrun : x.session.hub.state = .running := by
      unfold Receipt.interrupts at hi
      rw [hm] at hi
      simp only [Bool.and_eq_true, beq_iff_eq] at hi
      exact hi.1
    rw [target?_eq_some.mpr ⟨hm, hrun⟩] at ht
    cases ht
  | dismissed _ _ _ _ => rfl
  | @greeted header init _ _ _ _ =>
    obtain ⟨state, connection, f, ha, -, -, -⟩ := handshake_spec srv header.unique init ho
    exact Hub.marks_congr ha.hub.slots

theorem Course.marks_idle {s s' : Session σ} (c : Course srv s [] s') :
    s'.hub.marks = s.hub.marks := by
  generalize hxs : ([] : List (Receipt σ)) = xs at c
  induction c with
  | refl => rfl
  | frame => exact absurd hxs (by simp)
  | answer _ place a ih => exact (marks_answerKept srv _ place a).trans (ih hxs)
  | task _ handle ih => exact (marks_runTask srv _ handle).trans (ih hxs)
  | quiet _ h ih => exact (Hub.marks_congr h.hub.slots).trans (ih hxs)

/-! ## Interrupts -/

/-- The frame is an interrupt, and its number leads to the handle. -/
def Hits (x : Receipt σ) (i : Nat) : Prop :=
  ∃ target, x.target? = some target ∧ x.session.hub.pending.get? target = some i

/-- The marks are those that the interrupts left. -/
def Marked (xs : List (Receipt σ)) (s : Session σ) : Prop :=
  ∀ i, (s.hub.marks i).2 = false ∧ ((s.hub.marks i).1 = true ↔ ∃ x ∈ xs, Hits x i)

theorem Marked.congr {xs : List (Receipt σ)} {s s' : Session σ} (l : Marked xs s)
    (h : s'.hub.marks = s.hub.marks) : Marked xs s' := by
  unfold Marked
  rw [h]
  exact l

/-- One frame: it leaves a mark on the request that it hits, if it hits one. -/
theorem Marked.frame (srv : Server σ) {xs : List (Receipt σ)} {x : Receipt σ}
    (l : Marked xs x.session)
    (ho : x.session.hub.queueOpen = true)
    (hlt : ∀ p ∈ x.session.hub.pending, p.2 < x.session.hub.slots.length) :
    Marked (xs ++ [x]) (x.session.handleFrame srv x.frame).1 := by
  have hmore (hnot : ∀ i, ¬Hits x i) : Marked (xs ++ [x]) x.session := by
    intro i
    simp only [List.mem_append, List.mem_singleton, or_and_right, exists_or, exists_eq_left,
      hnot i, or_false]
    exact l i
  cases ht : x.target? with
  | none =>
    have hnot : ∀ i, ¬Hits x i := fun i ⟨target, h, _⟩ => by simp [ht] at h
    exact (hmore hnot).congr (marks_handled (handled srv x.session x.frame) ho ht)
  | some target =>
    obtain ⟨hm, hrun⟩ := target?_eq_some.mp ht
    obtain ⟨u, -, hframe⟩ := handleFrame_of_interrupt srv hm hrun
    cases hp : x.session.hub.pending.get? target with
    | none =>
      rw [hp] at hframe
      rw [hframe]
      have hnot : ∀ i, ¬Hits x i := by
        rintro i ⟨target', h, hi⟩
        rw [ht] at h
        cases h
        rw [hp] at hi
        cases hi
      exact (hmore hnot).congr (Hub.marks_send _ _)
    | some handle =>
      rw [hp] at hframe
      rw [hframe]
      have hhits (i : Nat) : Hits x i ↔ i = handle := by
        simp [Hits, ht, hp, eq_comm]
      have hmarks := Hub.marks_interrupt (hlt _ (KeyedList.mem_of_get? hp))
      intro i
      obtain ⟨hclosed, hinterrupted⟩ := l i
      show ((x.session.hub.interrupt handle).marks i).2 = false ∧
        (((x.session.hub.interrupt handle).marks i).1 = true ↔ _)
      rw [hmarks i]
      simp only [List.mem_append, List.mem_singleton, or_and_right, exists_or, exists_eq_left,
        hhits i]
      by_cases hi : i = handle
      · subst hi
        simp [hclosed]
      · simp [hi, hclosed, hinterrupted]

theorem marked_start (user : σ) : Marked [] (start user) := by
  intro i
  simp [start, Hub.marks]

/-- Every number in the map leads to a request that a handler was called with. -/
theorem handle_lt_of_pending {user : σ} {xs : List (Receipt σ)} {s : Session σ}
    (c : Course srv (start user) xs s) {p : UInt64 × Nat} (hp : p ∈ s.hub.pending) :
    p.2 < s.hub.slots.length := by
  obtain ⟨r, op, hcall, hhandle, -⟩ := c.attested.pending p hp
  rw [← hhandle]
  exact (c.roll (roll_start user) rfl rfl).handle_lt hcall

theorem Course.marked {user : σ} {xs : List (Receipt σ)} {s : Session σ}
    (c : Course srv (start user) xs s) : Marked xs s := by
  induction c with
  | refl => exact marked_start user
  | @frame xs s' s'' frame d h ih =>
    have hframe := ih.frame srv (x := ⟨s', frame⟩) (d.open (open_start user)).queueOpen
      fun _ => handle_lt_of_pending d
    rwa [h] at hframe
  | answer _ place a ih => exact ih.congr (marks_answerKept srv _ place a)
  | task _ handle ih => exact ih.congr (marks_runTask srv _ handle)
  | quiet _ h ih => exact ih.congr (Hub.marks_congr h.hub.slots)

theorem Ends.marked {user : σ} {xs : List (Receipt σ)} {s : Session σ} {ending : Ending}
    (e : Ends srv (start user) xs s ending) : Marked xs s := by
  cases e with
  | outside c _ => exact c.marked
  | @frame xs s' s'' frame _ c h =>
    have hframe := c.marked.frame srv (x := ⟨s', frame⟩)
      (c.open (open_start user)).queueOpen fun _ => handle_lt_of_pending c
    rwa [h] at hframe

/-! ## The end -/

theorem marks_dismissed (srv : Server σ) (s : Session σ) :
    (s.dismissed srv).hub.marks = s.hub.marks := by
  obtain ⟨t, ht, c⟩ := parting srv s
  exact c.marks_idle.trans (Hub.marks_congr ht.slots)

theorem marks_comeToRest (srv : Server σ) (s : Session σ) :
    (s.comeToRest srv).hub.marks = s.hub.marks := (course_comeToRest srv s).marks_idle

theorem marks_finish {received : List UInt64} {s : Session σ} (l : Ledger received s)
    (ho : s.hub.queueOpen = true) (hr : s.hub.reachable = true) (ending : Ending) (j : Nat) :
    (s.finish srv ending).hub.marks j =
      if j ∈ (s.dismissed srv).hub.pending.map (·.2) then (true, true) else s.hub.marks j := by
  have hclosed := Hub.marks_closePending srv.drain (ledger_dismissed srv l ho hr).1
    ((queueOpen_dismissed srv s).trans ho) j
  have hwound : (s.windDown srv ending).hub.marks =
      ((s.dismissed srv).hub.closePending srv.drain).marks := by
    rcases ending with e | exit
    · rfl
    · cases exit with
      | destroy unique => exact Hub.marks_send _ (.success unique)
      | unmounted => rfl
      | shutdown => rfl
  have hfinish : (s.finish srv ending).hub.marks = (s.windDown srv ending).hub.marks :=
    marks_comeToRest srv (s.windDown srv ending)
  rw [hfinish, hwound, hclosed, marks_dismissed]

/-- After the end there are neither new marks nor new calls. -/
theorem after_the_end (srv : Server σ) {s : Session σ} (he : s.ended = true)
    (inputs : List Input) : (s.run srv inputs).hub.marks = s.hub.marks ∧
      (s.run srv inputs).hub.called = s.hub.called := by
  induction inputs generalizing s with
  | nil => exact ⟨rfl, rfl⟩
  | cons input inputs ih =>
    have hended : (s.step srv input).1.ended = true := by
      rw [ended, result_step_of_ended he]
      exact he
    have hout : (s.outside srv input).1.hub.marks = s.hub.marks := by
      cases input with
      | answer place a => exact marks_answerKept srv s place a
      | _ => rfl
    have htalks := (talks_outside srv s input).trans (talks_comeToRest srv _)
    obtain ⟨hmarks, hcalled⟩ := ih hended
    rw [run_cons, hmarks, hcalled, step_of_ended he]
    exact ⟨(marks_comeToRest srv _).trans hout, Hub.called_congr (Hub.calls_of_talks htalks)⟩

/-- What marks a run leaves that comes to its end. -/
theorem marks_of_endOf {received : List UInt64} {s t : Session σ} {inputs : List Input}
    {ending : Ending} (he : s.endOf srv inputs = some (t, ending)) (l : Ledger received t)
    (ho : t.hub.queueOpen = true) (hr : t.hub.reachable = true) :
    (s.run srv inputs).hub.called = t.hub.called ∧ ∀ j, (s.run srv inputs).hub.marks j =
      if j ∈ (t.dismissed srv).hub.pending.map (·.2) then (true, true) else t.hub.marks j := by
  obtain ⟨after, hrun⟩ := run_of_endOf he
  have hended : ((t.finish srv ending).comeToRest srv).ended = true :=
    ((over_finish t ending).course (course_comeToRest srv _)).result
  obtain ⟨hmarks, hcalled⟩ := after_the_end srv hended after
  rw [hrun, hmarks, hcalled]
  refine ⟨?_, ?_⟩
  · rw [Hub.called_congr (Hub.calls_of_talks (talks_comeToRest srv _)),
      Hub.called_congr (calls_finish srv t ending)]
  · intro j
    rw [marks_comeToRest, marks_finish l ho hr]

end Session

end Fuse
