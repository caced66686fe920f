-- Where frames come from. Every frame in the queue answers a frame that was received,
-- in the form that the kernel takes for it, and every request that a handler was
-- called with came with such a frame.
import Fuse.Proofs.ReplyForm

namespace Fuse

/-- What an answer adds to the queue, and what it takes out of the map of pending
requests. -/
theorem Hub.answer_effect {h : Hub} (ho : h.queueOpen = true) (hr : h.reachable = true)
    (profile : Profile) (r : Request) (a : Answer) :
    (∀ f ∈ (h.answer profile r a).1.queue, f ∈ h.queue ∨ r.kind.expectsReply = true ∧
      ∃ reply, r.check reply = none ∧ reply.frame? r.unique h.minor = some f ∧
        f.unique = r.unique) ∧
    ∀ p ∈ (h.answer profile r a).1.pending, p ∈ h.pending ∧
      (h.progress r = .pending → r.kind.expectsReply = true → p.1 ≠ r.unique) := by
  by_cases hp : h.progress r = .pending
  · rcases answer_cases hp ho hr profile a with
      ⟨he, reply, f, hc, hf, hu, ha⟩ | ⟨he, ha | ha⟩
    · refine ⟨?_, ?_⟩
      · intro g hg
        rw [ha.queue, queue_record] at hg
        rcases List.mem_append.mp hg with hg | hg
        · exact Or.inl hg
        · rw [List.mem_singleton.mp hg]
          exact Or.inr ⟨he, reply, hc, hf, hu⟩
      · intro p hmem
        rw [ha.pending] at hmem
        obtain ⟨hmem, hne⟩ := KeyedList.mem_erase.mp hmem
        exact ⟨hmem, fun _ _ => hne⟩
    · rw [ha.queue, ha.pending, he]
      exact ⟨fun _ hg => Or.inl hg, fun _ hmem => ⟨hmem, fun _ => Bool.noConfusion⟩⟩
    · rw [ha.queue, ha.pending, he]
      exact ⟨fun _ hg => Or.inl hg,
        fun _ hmem => ⟨(KeyedList.mem_erase.mp hmem).1, fun _ => Bool.noConfusion⟩⟩
  · have ha := alike_answer hp profile a
    rw [ha.queue, ha.pending]
    exact ⟨fun _ hg => Or.inl hg, fun _ hmem => ⟨hmem, fun hp' => absurd hp' hp⟩⟩

namespace Session

variable {σ : Type} {srv : Server σ}

/-- The operation fits into a message, so its limit on answers is exact. -/
def Sized (op : Operation) : Prop :=
  ∀ ino offset data file, op = .write ino offset data file → data.length < UInt32.size

/-- The request came with the frame, as this operation, on this connection. -/
structure Stems (x : Receipt σ) (c : Connection) (r : Request) (op : Operation) : Prop where
  unique : x.unique? = some r.unique
  connection : x.session.hub.connection = some c
  due : r.kind.expectsReply = true → x.due = 1 ∧ x.operation? = some op

/-- The frames that were received account for all that is sent, and for all that was
handed to handlers. -/
structure Attested (xs : List (Receipt σ)) (s : Session σ) : Prop where
  queue : ∀ f ∈ s.hub.queue, ∃ x ∈ xs, x.Admits f
  called : ∀ r op, (r, op) ∈ s.hub.calls → Sized op ∧
    ∃ c, s.hub.connection = some c ∧ ∃ x ∈ xs, Stems x c r op
  pending : ∀ p ∈ s.hub.pending, ∃ r op, (r, op) ∈ s.hub.calls ∧ r.handle = p.2 ∧
    r.kind.expectsReply = true
  started : ∀ r op, (r, op) ∈ s.hub.calls → s.hub.state ≠ .created
  opened : s.hub.state = .running → s.hub.connection.isSome = true

/-! ## What does not matter -/

/-- Nothing was called, tracked or decided anew, and what was sent is accounted for. -/
theorem Attested.congr {xs : List (Receipt σ)} {s s' : Session σ} (l : Attested xs s)
    (hq : ∀ f ∈ s'.hub.queue, f ∈ s.hub.queue ∨ ∃ x ∈ xs, x.Admits f)
    (hc : s'.hub.calls = s.hub.calls) (hp : ∀ p ∈ s'.hub.pending, p ∈ s.hub.pending)
    (hs : s'.hub.state = s.hub.state) (hn : s'.hub.connection = s.hub.connection) :
    Attested xs s' := by
  refine ⟨?_, ?_, ?_, ?_, ?_⟩
  · intro f hf
    rcases hq f hf with hf | hf
    · exact l.queue f hf
    · exact hf
  · rw [hc, hn]
    exact l.called
  · intro p hmem
    rw [hc]
    exact l.pending p (hp p hmem)
  · rw [hc, hs]
    exact l.started
  · rw [hs, hn]
    exact l.opened

theorem Attested.alike {xs : List (Receipt σ)} {s s' : Session σ} (l : Attested xs s)
    (a : Alike s s') : Attested xs s' := by
  refine l.congr ?_ a.hub.calls ?_ a.hub.state a.hub.connection
  · intro f hf
    rw [a.hub.queue] at hf
    exact Or.inl hf
  · intro p hp
    rwa [a.hub.pending] at hp

theorem Attested.more {xs : List (Receipt σ)} {s : Session σ} (l : Attested xs s)
    (x : Receipt σ) : Attested (xs ++ [x]) s := by
  refine ⟨?_, ?_, l.pending, l.started, l.opened⟩
  · intro f hf
    obtain ⟨y, hy, ha⟩ := l.queue f hf
    exact ⟨y, List.mem_append_left _ hy, ha⟩
  · intro r op hc
    obtain ⟨hsized, c, hconn, y, hy, hst⟩ := l.called r op hc
    exact ⟨hsized, c, hconn, y, List.mem_append_left _ hy, hst⟩

/-! ## Answers -/

/-- What an answer to a request can send, as an answer to the frame that it stems
from. -/
theorem admits_answer {x : Receipt σ} {c : Connection} {r : Request} {op : Operation}
    (hst : Stems x c r op) (hk : r.kind = op.kind) (hl : r.limit = op.replyLimit)
    (hw : Sized op) {reply : Reply} {f : Frame} (he : r.kind.expectsReply = true)
    (hc : r.check reply = none) (hf : reply.frame? r.unique c.minor = some f)
    (hu : f.unique = r.unique) : x.Admits f := by
  obtain ⟨hdue, hop⟩ := hst.due he
  refine ⟨hu ▸ hst.unique, hdue, ?_⟩
  rw [hop]
  exact ⟨c, hst.connection, admits_of_check hk hl hw hc hf⟩

theorem minor_of_connection {h : Hub} {c : Connection} (hc : h.connection = some c) :
    h.minor = c.minor := by
  unfold Hub.minor
  rw [hc]
  rfl

/-- An answer to a request that a handler was called with. -/
theorem Attested.answer {xs : List (Receipt σ)} {s s' : Session σ} (l : Attested xs s)
    (ho : s.hub.queueOpen = true) (hr : s.hub.reachable = true) {r : Request} {op : Operation}
    (hcall : (r, op) ∈ s.hub.calls) (hk : r.kind = op.kind) (hl : r.limit = op.replyLimit)
    (a : Answer) (hs : s'.hub = (s.hub.answer srv.profile r a).1) : Attested xs s' := by
  have hsteady := Hub.steady_answer srv.profile s.hub r a
  have hcalls := Hub.calls_answer srv.profile s.hub r a
  obtain ⟨hqueue, hpending⟩ := Hub.answer_effect ho hr srv.profile r a
  obtain ⟨hw, c, hconn, x, hx, hst⟩ := l.called r op hcall
  rw [← hs] at hsteady hcalls hqueue hpending
  refine l.congr ?_ hcalls (fun p hp => (hpending p hp).1) hsteady.state hsteady.connection
  intro f hf
  rcases hqueue f hf with hf | ⟨he, reply, hc, hf, hu⟩
  · exact Or.inl hf
  · rw [minor_of_connection hconn] at hf
    exact Or.inr ⟨x, hx, admits_answer hst hk hl hw he hc hf hu⟩

theorem attested_answerKept {xs : List (Receipt σ)} {s : Session σ} (l : Attested xs s)
    (lr : Roll s) (ho : s.hub.queueOpen = true) (hr : s.hub.reachable = true) (place : Nat)
    (a : Answer) : Attested xs (s.answerKept srv place a).1 := by
  rcases answerKept_cases srv s place a with h | ⟨r, hk, h⟩
  · rwa [h]
  · have hmem : r ∈ s.held := (perm_afterKept srv hk a).mem_iff.mpr List.mem_cons_self
    obtain ⟨op, hcall⟩ := lr.called r hmem
    obtain ⟨-, hkind, hlimit⟩ := lr.enrolled r op hcall
    rw [h]
    exact l.answer ho hr hcall hkind hlimit a rfl

theorem attested_runTask {xs : List (Receipt σ)} {s : Session σ} (l : Attested xs s)
    (lr : Roll s) (ho : s.hub.queueOpen = true) (hr : s.hub.reachable = true) (handle : Nat) :
    Attested xs (s.runTask srv handle) := by
  rcases runTask_cases srv s handle with h | ⟨t, ht, h⟩
  · rwa [h]
  · have hmem : t.request ∈ s.held :=
      (perm_afterTask srv ht).mem_iff.mpr List.mem_cons_self
    obtain ⟨op, hcall⟩ := lr.called t.request hmem
    obtain ⟨-, hkind, hlimit⟩ := lr.enrolled t.request op hcall
    rw [h]
    exact l.answer ho hr hcall hkind hlimit t.answer rfl

/-! ## Operations -/

theorem attested_use {xs : List (Receipt σ)} {s : Session σ} (l : Attested xs s)
    (ho : s.hub.queueOpen = true) (hr : s.hub.reachable = true) {r : Request} {op : Operation}
    (hcall : (r, op) ∈ s.hub.calls) (hk : r.kind = op.kind) (hl : r.limit = op.replyLimit)
    (use : Use) : Attested xs (s.use srv r use).1 := by
  cases use with
  | answer a => exact l.answer ho hr hcall hk hl a rfl
  | keep => exact l.congr (fun _ hf => Or.inl hf) rfl (fun _ hp => hp) rfl rfl
  | onInterrupt a =>
    have hw := Hub.alike_wake s.hub (.task r.handle)
    refine l.congr ?_ hw.calls ?_ hw.state hw.connection
    · intro f hf
      replace hf : f ∈ (s.hub.wake (.task r.handle)).queue := hf
      rw [hw.queue] at hf
      exact Or.inl hf
    · intro p hp
      replace hp : p ∈ (s.hub.wake (.task r.handle)).pending := hp
      rwa [hw.pending] at hp

/-- The call of a handler, accounted for by the frame that it stems from. -/
theorem Attested.call {xs : List (Receipt σ)} {s : Session σ} (l : Attested xs s)
    (hrun : s.hub.state = .running) {c : Connection} (hconn : s.hub.connection = some c)
    {x : Receipt σ} (hx : x ∈ xs) {header : Kernel.InHeader} {op : Operation} (hw : Sized op)
    (hst : Stems x c (s.hub.enrol header op).2 op) :
    Attested xs { s with
      hub := (s.hub.enrol header op).1.record (.called (s.hub.enrol header op).2 op) } := by
  have hcalls := Hub.calls_record (s.hub.enrol header op).1 (.called (s.hub.enrol header op).2 op)
  have hqueue := Hub.queue_record (s.hub.enrol header op).1 (.called (s.hub.enrol header op).2 op)
  refine ⟨?_, ?_, ?_, ?_, l.opened⟩
  · intro f hf
    rw [hqueue] at hf
    rcases List.mem_append.mp hf with hf | hf
    · exact l.queue f hf
    · cases hf
  · intro r op' hc
    rw [hcalls] at hc
    rcases List.mem_append.mp hc with hc | hc
    · exact l.called r op' hc
    · cases List.mem_singleton.mp hc
      exact ⟨hw, c, hconn, x, hx, hst⟩
  · intro p hp
    rw [hcalls]
    rcases Hub.mem_pending_enrol header op hp with hp | ⟨hk, rfl⟩
    · obtain ⟨r, op', hc, hrest⟩ := l.pending p hp
      exact ⟨r, op', List.mem_append_left _ hc, hrest⟩
    · exact ⟨_, op, List.mem_append_right _ List.mem_cons_self, rfl, hk⟩
  · intro r op' _ hcreated
    exact absurd (hcreated.symm.trans hrun) (by decide)

/-- What a message that was handed on leaves behind: `x` accounts for the request
that it became. -/
theorem attested_dispatch {xs : List (Receipt σ)} {s : Session σ} (l : Attested xs s)
    (ho : s.hub.queueOpen = true) (hr : s.hub.reachable = true)
    (hrun : s.hub.state = .running) {c : Connection} (hconn : s.hub.connection = some c)
    {x : Receipt σ} (hx : x ∈ xs) {header : Kernel.InHeader} {op : Operation} (hw : Sized op)
    (hst : Stems x c (s.hub.enrol header op).2 op) : Attested xs (s.dispatch srv header op) := by
  have he := Hub.steady_enrol s.hub header op
  rcases dispatch_cases srv s header op with ⟨a, h⟩ | ⟨t, use, hcalled, huse⟩
  · rw [h]
    have hsteady := he.trans (Hub.steady_answer srv.profile _ (s.hub.enrol header op).2 a)
    obtain ⟨hqueue, hpending⟩ := Hub.answer_effect (he.queueOpen.trans ho)
      (he.reachable.trans hr) srv.profile (s.hub.enrol header op).2 a
    refine l.congr ?_ (Hub.calls_answer _ _ _ _) ?_ hsteady.state hsteady.connection
    · intro f hf
      rcases hqueue f hf with hf | ⟨hk, reply, hc, hf, hu⟩
      · exact Or.inl hf
      · rw [minor_of_connection (he.connection.trans hconn)] at hf
        exact Or.inr ⟨x, hx, admits_answer hst rfl rfl hw hk hc hf hu⟩
    · intro p hp
      obtain ⟨hp, hne⟩ := hpending p hp
      rcases Hub.mem_pending_enrol header op hp with hp | ⟨hk, rfl⟩
      · exact hp
      · exact absurd rfl (hne (Hub.progress_enrol _ _ _) hk)
  · have lt := (l.call hrun hconn hx hw hst).alike hcalled
    have hcall : ((s.hub.enrol header op).2, op) ∈ t.hub.calls := by
      rw [hcalled.hub.calls, Hub.calls_record]
      exact List.mem_append_right _ List.mem_cons_self
    exact (attested_use lt (hcalled.hub.queueOpen.trans (he.queueOpen.trans ho))
      (hcalled.hub.reachable.trans (he.reachable.trans hr)) hcall rfl rfl use).alike huse

theorem attested_dispatchForgets {xs : List (Receipt σ)} {s : Session σ} (l : Attested xs s)
    (ho : s.hub.queueOpen = true) (hr : s.hub.reachable = true)
    (hrun : s.hub.state = .running) {x : Receipt σ} (hx : x ∈ xs) {header : Kernel.InHeader}
    (hu : x.unique? = some header.unique)
    (hconn : x.session.hub.connection = s.hub.connection) (items : List Kernel.ForgetOne) :
    Attested xs (s.dispatchForgets srv header items) := by
  induction items generalizing s with
  | nil => exact l
  | cons i items ih =>
    have hs := steady_dispatch srv s header (.forget i.nodeid i.nlookup)
    obtain ⟨c, hc⟩ := Option.isSome_iff_exists.mp (l.opened hrun)
    have hst : Stems x c (s.hub.enrol header (.forget i.nodeid i.nlookup)).2
        (.forget i.nodeid i.nlookup) := ⟨hu, hconn.trans hc, fun he => Bool.noConfusion he⟩
    have hw : Sized (.forget i.nodeid i.nlookup) := fun _ _ _ _ he => by cases he
    exact ih (attested_dispatch l ho hr hrun hc hx hw hst) (hs.queueOpen.trans ho)
      (hs.reachable.trans hr) (hs.state.trans hrun) (hconn.trans hs.connection.symm)

/-! ## Frames -/

/-- The session itself answers with an error. -/
theorem admits_refusal {x : Receipt σ} {f : Frame} (hu : x.unique? = some f.unique)
    (hd : x.due = 1) (ho : x.operation? = none) (he : f.IsError) : x.Admits f := by
  obtain ⟨e, hv, hf⟩ := he
  refine ⟨hu, hd, ?_⟩
  rw [ho, hf]
  exact Or.inl (refuses_of_valid hv _)

/-- Nobody was called before the session ran. -/
theorem Attested.calls_of_created {xs : List (Receipt σ)} {s : Session σ} (l : Attested xs s)
    (hc : s.hub.state = .created) : s.hub.calls = [] := by
  refine List.eq_nil_iff_forall_not_mem.mpr ?_
  rintro ⟨r, op⟩ hmem
  exact l.started r op hmem hc

/-- The answer to the kernel's proposal. No request is there yet, so it does not
matter that there is a connection only from now on. -/
theorem Attested.greeted {xs : List (Receipt σ)} {x : Receipt σ} (l : Attested xs x.session)
    (o : x.session.hub.Open) (hx : x ∈ xs) {header : Kernel.InHeader} {init : Kernel.InitIn}
    (hh : x.header? = some header) (hd : x.due = 1) (hm : x.message? = some (.init init))
    (hc : x.session.hub.state = .created) :
    Attested xs (x.session.handshake srv header.unique init).1 := by
  have hopen := open_handshake srv o hc header.unique init
  obtain ⟨state, connection, f, ha, hu, hf, -⟩ :=
    handshake_spec srv header.unique init o.queueOpen
  have hadmits : x.Admits f := by
    have hop : x.operation? = none := by simp [Receipt.operation?, hm]
    have hxu := unique?_of_header? hh
    rcases hf with he | ⟨out, minor, hf⟩
    · exact admits_refusal (hu ▸ hxu) hd hop he
    · refine ⟨hu ▸ hxu, hd, ?_⟩
      rw [hop]
      exact Or.inr (Or.inl ⟨⟨init, hm⟩, out, minor, hu ▸ hf⟩)
  have hcalls : (x.session.handshake srv header.unique init).1.hub.calls = [] := by
    refine (ha.hub.calls.trans ((Hub.calls_record _ _).trans (List.append_nil _))).trans ?_
    exact l.calls_of_created hc
  refine ⟨?_, ?_, ?_, ?_, hopen.running.mp⟩
  · intro g hg
    rw [ha.hub.queue, Hub.queue_record] at hg
    rcases List.mem_append.mp hg with hg | hg
    · exact l.queue g hg
    · rw [List.mem_singleton.mp hg]
      exact ⟨x, hx, hadmits⟩
  · rw [hcalls]
    exact fun _ _ h => absurd h List.not_mem_nil
  · intro p hp
    rw [ha.hub.pending] at hp
    obtain ⟨r, op, hcall, -⟩ := l.pending p hp
    exact absurd hc (l.started r op hcall)
  · rw [hcalls]
    exact fun _ _ h => absurd h List.not_mem_nil

/-- One frame: it accounts for all that is sent because of it. -/
theorem attested_handled {xs : List (Receipt σ)} {x : Receipt σ} {s' : Session σ}
    {ending : Option Ending} (hx : Handled srv x s' ending) (l : Attested xs x.session)
    (o : x.session.hub.Open) : Attested (xs ++ [x]) s' := by
  have lx := l.more x
  have hmem : x ∈ xs ++ [x] := List.mem_append_right _ List.mem_cons_self
  cases hx with
  | dropped _ ha => exact lx.alike ha
  | @refused t header e hh hd hop ha he =>
    have lt := lx.alike ha
    have hsent := Hub.steady_send t.hub (.ofErrno header.unique e)
    refine lt.congr ?_ (Hub.send_calls _ _) ?_ hsent.state hsent.connection
    · intro f hf
      replace hf : f ∈ (t.hub.send (.ofErrno header.unique e)).queue := hf
      rw [Hub.send_queue _ _ (ha.hub.queueOpen.trans o.queueOpen)] at hf
      rcases List.mem_append.mp hf with hf | hf
      · exact Or.inl hf
      · rw [List.mem_singleton.mp hf]
        exact Or.inr ⟨x, hmem, admits_refusal (unique?_of_header? hh) hd hop ⟨e, he, rfl⟩⟩
    · intro p hp
      replace hp : p ∈ (t.hub.send (.ofErrno header.unique e)).pending := hp
      rwa [Hub.send_pending] at hp
  | forgotten hh _ hr =>
    exact attested_dispatchForgets lx o.queueOpen o.reachable hr hmem (unique?_of_header? hh) rfl _
  | dispatched hh hd hop hr _ hw =>
    obtain ⟨c, hc⟩ := Option.isSome_iff_exists.mp (l.opened hr)
    exact attested_dispatch lx o.queueOpen o.reachable hr hc hmem hw
      ⟨unique?_of_header? hh, hc, fun _ => ⟨hd, hop⟩⟩
  | @interrupted target handle _ _ =>
    have hs := Hub.steady_interrupt x.session.hub handle
    have ha := Hub.alike_interrupt x.session.hub handle
    refine lx.congr ?_ ha.calls ?_ hs.state hs.connection
    · intro f hf
      replace hf : f ∈ (x.session.hub.interrupt handle).queue := hf
      rw [ha.queue] at hf
      exact Or.inl hf
    · intro p hp
      replace hp : p ∈ (x.session.hub.interrupt handle).pending := hp
      rw [ha.pending] at hp
      exact hp
  | dismissed _ _ _ _ => exact lx
  | greeted hh hd hm hc => exact lx.greeted o hmem hh hd hm hc

/-! ## Courses -/

theorem attested_start (user : σ) : Attested [] (start user) := by
  refine ⟨?_, ?_, ?_, ?_, ?_⟩
  · intro f hf
    cases hf
  · intro r op hc
    cases hc
  · intro p hp
    cases hp
  · intro r op hc
    cases hc
  · intro hs
    cases hs

/-- Along every course from the start, all that is sent is accounted for. -/
theorem Course.attested {user : σ} {xs : List (Receipt σ)} {s : Session σ}
    (c : Course srv (start user) xs s) : Attested xs s := by
  induction c with
  | refl => exact attested_start user
  | @frame xs s' s'' frame d h ih =>
    have hx := handled srv s' frame
    rw [h] at hx
    exact attested_handled hx ih (d.open (open_start user))
  | answer d place a ih =>
    have o := d.open (open_start user)
    exact attested_answerKept ih (d.roll (roll_start user) rfl rfl) o.queueOpen o.reachable place a
  | task d handle ih =>
    have o := d.open (open_start user)
    exact attested_runTask ih (d.roll (roll_start user) rfl rfl) o.queueOpen o.reachable handle
  | quiet _ h ih => exact ih.alike h

theorem Ends.attested {user : σ} {xs : List (Receipt σ)} {s : Session σ} {ending : Ending}
    (e : Ends srv (start user) xs s ending) : Attested xs s := by
  cases e with
  | outside c _ => exact c.attested
  | @frame xs s' s'' frame _ c h =>
    have hx := handled srv s' frame
    rw [h] at hx
    exact attested_handled hx c.attested (c.open (open_start user))

/-- Without frames, all that is sent stays accounted for. -/
theorem Course.attested_idle {xs : List (Receipt σ)} {s s' : Session σ} (c : Course srv s [] s')
    (l : Attested xs s) (lr : Roll s) (ho : s.hub.queueOpen = true)
    (hr : s.hub.reachable = true) : Attested xs s' := by
  generalize hys : ([] : List (Receipt σ)) = ys at c
  induction c with
  | refl => exact l
  | frame => exact absurd hys (by simp)
  | answer d place a ih =>
    have hd := (d.onward ho).1
    exact attested_answerKept (ih hys) (d.roll lr ho hr) (hd.queueOpen.trans ho)
      (hd.reachable.trans hr) place a
  | task d handle ih =>
    have hd := (d.onward ho).1
    exact attested_runTask (ih hys) (d.roll lr ho hr) (hd.queueOpen.trans ho)
      (hd.reachable.trans hr) handle
  | quiet _ h ih => exact (ih hys).alike h

end Session

end Fuse
