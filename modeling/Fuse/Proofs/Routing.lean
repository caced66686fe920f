-- Each operation goes to the handler that was installed last for its kind, one after
-- the other in the order of the frames. Everything else reaches no handler.
import Fuse.Proofs.Moments
import Fuse.Proofs.Journal
import Fuse.Proofs.Registration
import Fuse.Proofs.Replies

namespace Fuse

variable {σ : Type}

/-! ## Calls and what the file system keeps -/

theorem Hub.calls_of_talks {h h' : Hub} (t : Talks h h') : h'.calls = h.calls := by
  obtain ⟨ds, hds, hwords⟩ := t.journal
  have hnone : ds.filterMap Deed.call? = [] := by
    refine List.filterMap_eq_nil_iff.mpr fun d hd => ?_
    have hword := hwords d hd
    cases d <;> first | rfl | cases hword
  unfold calls
  rw [hds, List.filterMap_append, hnone, List.append_nil]

/-! ## One order after another -/

namespace Routed

variable {regs : List (Registration σ)} {s s' s'' : Session σ} {orders orders' : List Order}

theorem idle (hc : s'.hub.calls = s.hub.calls) (hu : s'.user = s.user) :
    Routed regs s s' [] :=
  ⟨[], by rw [hc, List.append_nil], rfl, hu⟩

theorem trans (a : Routed regs s s' orders) (b : Routed regs s' s'' orders') :
    Routed regs s s'' (orders ++ orders') := by
  obtain ⟨cs, hcalls, horders, huser⟩ := a
  obtain ⟨cs', hcalls', horders', huser'⟩ := b
  refine ⟨cs ++ cs', ?_, ?_, ?_⟩
  · rw [hcalls', hcalls, List.append_assoc]
  · rw [List.map_append, horders, horders', List.filter_append]
  · rw [huser', huser, List.foldl_append]

/-- Time passes without a call. -/
theorem thenIdle (a : Routed regs s s' orders) (hc : s''.hub.calls = s'.hub.calls)
    (hu : s''.user = s'.user) : Routed regs s s'' orders := by
  have h := a.trans (idle hc hu)
  rwa [List.append_nil] at h

end Routed

namespace Session

variable {srv : Server σ}

theorem user_notes (s : Session σ) (es : List Event) : (es.foldl note s).user = s.user := by
  induction es generalizing s with
  | nil => rfl
  | cons e es ih => exact ih (s.note e)

theorem user_use (s : Session σ) (r : Request) (u : Use) : (s.use srv r u).1.user = s.user := by
  cases u <;> rfl

theorem user_flush (s : Session σ) : s.flush.user = s.user := by
  have hcarry (t : Session σ) (f : Frame) : (t.carry f).user = t.user := by
    unfold carry
    dsimp only
    split <;> rfl
  exact flush_keeps (motive := fun t => t.user = s.user) (fun t f ht => (hcarry t f).trans ht) rfl

theorem user_comeToRest (srv : Server σ) (s : Session σ) : (s.comeToRest srv).user = s.user := by
  have htask (t : Session σ) (handle : Nat) : (t.runTask srv handle).user = t.user := by
    rcases runTask_cases srv t handle with h | ⟨task, -, h⟩
    · rw [h]
    · rw [h]
      rfl
  exact comeToRest_keeps (motive := fun t => t.user = s.user) (fun _ ht => ht)
    (fun t ht => (user_flush t).trans ht) (fun t handle ht => (htask t handle).trans ht) rfl

/-! ## Frames -/

variable (profile : Profile) (drain : Drain) (regs : List (Registration σ)) (s : Session σ)

/-- An operation goes to the handler that was installed last, or to nobody. -/
theorem routed_dispatch (header : Kernel.InHeader) (op : Operation) :
    Routed regs s (s.dispatch ⟨.build regs, profile, drain⟩ header op) [.ofHeader header op] := by
  have hholds := Table.holds_build regs op.kind
  unfold dispatch
  dsimp only
  cases hres : (Table.build regs).resolve op.kind with
  | none =>
    dsimp only
    cases hlast : Registration.lastFor regs op.kind with
    | some installed =>
      rw [hres, hlast] at hholds
      exact hholds.elim
    | none =>
      refine ⟨[], ?_, ?_, rfl⟩
      · rw [List.append_nil]
        exact Hub.calls_answer profile (s.hub.enrol header op).1 (s.hub.enrol header op).2
          (.reply (if op.kind.expectsReply then .error .enosys else .none))
      · simp [Order.ofHeader, hlast]
  | some handler =>
    dsimp only
    cases hlast : Registration.lastFor regs op.kind with
    | none =>
      rw [hres, hlast] at hholds
      exact hholds.elim
    | some installed =>
      rw [hres, hlast] at hholds
      let e := s.hub.enrol header op
      let called : Session σ :=
        { s with hub := e.1.record (.called e.2 op), user := (handler s.user e.2 op).1 }
      let outcome := (handler s.user e.2 op).2
      let noted := outcome.notes.foldl note called
      have hused : Routed regs s (noted.use ⟨.build regs, profile, drain⟩ e.2 outcome.use).1
          [.ofHeader header op] := by
        have htalks := (talks_notes called outcome.notes).trans
          (talks_use ⟨.build regs, profile, drain⟩ noted e.2 outcome.use)
        refine ⟨[(e.2, op)], ?_, ?_, ?_⟩
        · rw [Hub.calls_of_talks htalks]
          exact Hub.calls_record _ _
        · simp [Order.ofHeader, Order.ofCall, hlast, e, Hub.enrol]
        · rw [user_use, user_notes]
          show (handler s.user e.2 op).1 = Registration.call regs s.user (e.2, op)
          rw [Registration.call, hlast, hholds s.user e.2 op rfl]
      split
      · exact hused.thenIdle (Hub.calls_of_talks (Hub.talks_note _ _)) rfl
      · exact hused

theorem routed_dispatchForgets (header : Kernel.InHeader) (items : List Kernel.ForgetOne) :
    Routed regs s (s.dispatchForgets ⟨.build regs, profile, drain⟩ header items)
      (items.map fun i => .ofHeader header (.forget i.nodeid i.nlookup)) := by
  induction items generalizing s with
  | nil => exact .idle rfl rfl
  | cons i items ih => exact (routed_dispatch profile drain regs s header _).trans (ih _)

theorem readFrame?_eq_some {minor : UInt32} {frame : Bytes} {header : Kernel.InHeader}
    {m : Message} : readFrame? minor frame = some (header, m) ↔
      decodeHeader frame = .ok header ∧ decodeMessage header frame minor = .ok m := by
  unfold readFrame?
  cases hd : decodeHeader frame with
  | error e => simp
  | ok header' =>
    cases hm : decodeMessage header' frame minor with
    | error e =>
      constructor
      · intro h
        simp [hm, Except.toOption] at h
      · rintro ⟨hh, hok⟩
        cases hh
        rw [hm] at hok
        cases hok
    | ok m' =>
      constructor
      · intro h
        simp only [hm, Except.toOption, Option.map_some, Option.some.injEq, Prod.mk.injEq] at h
        obtain ⟨rfl, rfl⟩ := h
        exact ⟨rfl, hm⟩
      · rintro ⟨hh, hok⟩
        cases hh
        rw [hm] at hok
        cases hok
        simp [hm, Except.toOption]

/-- What a session does with a frame that cannot be read: it talks, and no more. -/
theorem handleFrame_of_unread (srv : Server σ) {s : Session σ} {frame : Bytes}
    (h : readFrame? s.hub.minor frame = none) :
    Hub.Talks s.hub (s.handleFrame srv frame).1.hub ∧
      (s.handleFrame srv frame).1.user = s.user ∧ (s.handleFrame srv frame).2 = none := by
  unfold handleFrame
  cases hd : decodeHeader frame with
  | error e => exact ⟨Hub.talks_note _ _, rfl, rfl⟩
  | ok header =>
    dsimp only
    cases hm : decodeMessage header frame s.hub.minor with
    | ok m =>
      rw [readFrame?_eq_some.mpr ⟨hd, hm⟩] at h
      cases h
    | error e =>
      dsimp only
      split
      · exact ⟨Hub.talks_note _ _, rfl, rfl⟩
      · exact ⟨(Hub.talks_note _ _).trans (Hub.talks_send _ _), rfl, rfl⟩

theorem handleFrame_of_read (srv : Server σ) {s : Session σ} {frame : Bytes}
    {header : Kernel.InHeader} {m : Message}
    (h : readFrame? s.hub.minor frame = some (header, m)) :
    s.handleFrame srv frame = s.handleMessage srv header m := by
  obtain ⟨hd, hm⟩ := readFrame?_eq_some.mp h
  unfold handleFrame
  rw [hd]
  dsimp only
  rw [hm]

/-- A running session hands out the orders of a frame, and only a goodbye ends it. -/
theorem routed_handleFrame {s : Session σ} (hr : s.hub.state = .running) (frame : Bytes) :
    Routed regs s (s.handleFrame ⟨.build regs, profile, drain⟩ frame).1
        (ordersIn s.hub.minor frame) ∧
      ((s.handleFrame ⟨.build regs, profile, drain⟩ frame).2.isSome =
        isGoodbye s.hub.minor frame) := by
  unfold ordersIn isGoodbye
  cases hread : readFrame? s.hub.minor frame with
  | none =>
    obtain ⟨ht, hu, hnone⟩ := handleFrame_of_unread ⟨.build regs, profile, drain⟩ hread
    rw [hnone]
    exact ⟨.idle (Hub.calls_of_talks ht) hu, rfl⟩
  | some p =>
    obtain ⟨header, m⟩ := p
    rw [handleFrame_of_read _ hread]
    unfold handleMessage
    simp only [hr, if_true]
    cases m with
    | init proposal =>
      exact ⟨.idle (Hub.calls_of_talks ((Hub.talks_note _ _).trans (Hub.talks_send _ _))) rfl, rfl⟩
    | destroy => exact ⟨.idle rfl rfl, rfl⟩
    | interrupt target =>
      dsimp only [Message.orders]
      unfold Session.interrupt
      cases s.hub.pending.get? target with
      | some handle => exact ⟨.idle (Hub.calls_of_talks (Hub.writes_interrupt _ _)) rfl, rfl⟩
      | none => exact ⟨.idle (Hub.calls_of_talks (Hub.talks_send _ _)) rfl, rfl⟩
    | forget items => exact ⟨routed_dispatchForgets profile drain regs s header items, rfl⟩
    | operation op => exact ⟨routed_dispatch profile drain regs s header op, rfl⟩
    | unsupported opcode => exact ⟨.idle (Hub.calls_of_talks (Hub.talks_send _ _)) rfl, rfl⟩

/-- A running session keeps on running, whatever frame comes. -/
theorem steady_of_running (srv : Server σ) {s : Session σ} (hr : s.hub.state = .running)
    (frame : Bytes) : Hub.Steady s.hub (s.handleFrame srv frame).1.hub := by
  rcases steady_or_handshake srv s frame with ⟨hl, -⟩ | ⟨hc, -⟩
  · exact hl
  · rw [hr] at hc
    cases hc

theorem steady_receive (srv : Server σ) {s : Session σ} (hr : s.hub.state = .running)
    (frames : List Bytes) : Hub.Steady s.hub (s.receive srv frames).1.hub := by
  induction frames generalizing s with
  | nil => exact .refl _
  | cons frame frames ih =>
    have hsteady := steady_of_running srv hr frame
    rw [receive_cons]
    cases hf : s.handleFrame srv frame with
    | mk t ending =>
      rw [hf] at hsteady
      cases ending with
      | none => exact hsteady.trans (ih (hsteady.state.trans hr))
      | some ending => exact hsteady

theorem routed_receive {s : Session σ} (hr : s.hub.state = .running) (frames : List Bytes) :
    Routed regs s (s.receive ⟨.build regs, profile, drain⟩ frames).1
      (ordersOf s.hub.minor frames) := by
  induction frames generalizing s with
  | nil => exact .idle rfl rfl
  | cons frame frames ih =>
    obtain ⟨hrouted, hends⟩ := routed_handleFrame profile drain regs hr frame
    have hsteady := steady_of_running ⟨.build regs, profile, drain⟩ hr frame
    rw [receive_cons]
    cases hf : s.handleFrame ⟨.build regs, profile, drain⟩ frame with
    | mk t ending =>
      rw [hf] at hrouted hends hsteady
      have hmore : ordersOf s.hub.minor (frame :: frames) =
          if isGoodbye s.hub.minor frame = true then []
          else ordersIn s.hub.minor frame ++ ordersOf s.hub.minor frames := by
        unfold ordersOf
        rw [List.takeWhile_cons]
        cases isGoodbye s.hub.minor frame <;> simp
      cases ending with
      | none =>
        have hrest := ih (hsteady.state.trans hr)
        rw [hsteady.minor] at hrest
        rw [hmore, ← hends]
        exact hrouted.trans hrest
      | some ending =>
        rw [hmore, ← hends]
        have hnone : ordersIn s.hub.minor frame = [] := by
          unfold isGoodbye at hends
          unfold ordersIn
          cases hread : readFrame? s.hub.minor frame with
          | none => rfl
          | some p =>
            rw [hread] at hends
            have hm : p.2 = .destroy := of_decide_eq_true hends.symm
            show p.2.orders p.1 = []
            rw [hm]
            rfl
        rw [hnone] at hrouted
        exact hrouted

/-! ## Frames without a handler -/

/-- What nobody serves is turned down at once. -/
theorem rebuffs_dispatch {s : Session σ} (o : s.hub.Open) (header : Kernel.InHeader)
    {op : Operation} (hl : Registration.lastFor regs op.kind = none) :
    Rebuffs s (s.dispatch ⟨.build regs, profile, drain⟩ header op)
      (if op.kind.expectsReply then [.ofErrno header.unique .enosys] else []) := by
  have hres : (Table.build regs).resolve op.kind = none := by
    have hholds := Table.holds_build regs op.kind
    rw [hl] at hholds
    cases hres : (Table.build regs).resolve op.kind with
    | none => rfl
    | some handler =>
      rw [hres] at hholds
      exact hholds.elim
  let h := (s.hub.enrol header op).1
  let r := (s.hub.enrol header op).2
  let reply : Reply := if op.kind.expectsReply then .error .enosys else .none
  have hkind : r.kind = op.kind := rfl
  have hp : h.progress r = .pending := Hub.progress_enrol _ _ _
  have hcheck : r.check reply = none := by
    unfold Request.check
    rw [hkind]
    cases he : op.kind.expectsReply <;>
      simp [reply, Reply.shape, OpKind.accepts, he, Errno.valid, Errno.enosys]
  have hanswer := Hub.answer_of_checked hp hcheck profile
  have hdispatch : s.dispatch ⟨.build regs, profile, drain⟩ header op =
      { s with hub := (h.answer profile r (.reply reply)).1 } := by
    unfold dispatch
    dsimp only
    rw [hres]
    rfl
  have hopen : h.queueOpen = true := o.queueOpen
  have hreach : (h.markAnswered r).reachable = true := o.reachable
  rw [hdispatch, hanswer]
  refine ⟨?_, ?_, rfl, rfl, rfl⟩
  · refine (Hub.queue_deliver (h := h.markAnswered r) hopen hreach r reply).trans
      (congrArg (s.hub.queue ++ ·) ?_)
    cases he : op.kind.expectsReply <;> simp only [reply, he] <;> rfl
  · show ((h.markAnswered r).deliver r reply).calls = s.hub.calls
    rw [Hub.calls_of_talks (Hub.talks_deliver _ _ _)]
    rfl

end Session

theorem Rebuffs.trans {s s' s'' : Session σ} {fs gs : List Frame} (a : Rebuffs s s' fs)
    (b : Rebuffs s' s'' gs) : Rebuffs s s'' (fs ++ gs) :=
  ⟨by rw [b.queue, a.queue, List.append_assoc], b.calls.trans a.calls, b.user.trans a.user,
    b.kept.trans a.kept, b.tasks.trans a.tasks⟩

namespace Session

variable (profile : Profile) (drain : Drain) (regs : List (Registration σ))

theorem rebuffs_dispatchForgets {s : Session σ} (o : s.hub.Open) (header : Kernel.InHeader)
    (items : List Kernel.ForgetOne) (hl : Registration.lastFor regs .forget = none) :
    Rebuffs s (s.dispatchForgets ⟨.build regs, profile, drain⟩ header items) [] := by
  induction items generalizing s with
  | nil => exact ⟨(List.append_nil _).symm, rfl, rfl, rfl, rfl⟩
  | cons i items ih =>
    have hsteady := steady_dispatch ⟨.build regs, profile, drain⟩ s header
      (.forget i.nodeid i.nlookup)
    have hone : Rebuffs s
        (s.dispatch ⟨.build regs, profile, drain⟩ header (.forget i.nodeid i.nlookup)) [] :=
      rebuffs_dispatch profile drain regs o header hl
    exact hone.trans (ih (o.steady hsteady))

/-- A running session turns down at once what nobody serves. -/
theorem rebuffs_handleFrame {x : Receipt σ} (o : x.session.hub.Open)
    (hr : x.session.hub.state = .running) {fs : List Frame} (h : x.rebuff? regs = some fs) :
    Rebuffs x.session (x.session.handleFrame ⟨.build regs, profile, drain⟩ x.frame).1 fs := by
  unfold Receipt.rebuff? at h
  cases hread : readFrame? x.session.hub.minor x.frame with
  | none =>
    rw [hread] at h
    cases h
  | some p =>
    obtain ⟨header, m⟩ := p
    rw [hread] at h
    rw [handleFrame_of_read _ hread]
    unfold handleMessage
    simp only [hr, if_true]
    cases m with
    | operation op =>
      dsimp only at h ⊢
      split at h
      · cases h
      · rename_i hl
        cases h
        have hexpects := (operation_of_decoded (readFrame?_eq_some.mp hread).2).1
        have hrebuff := rebuffs_dispatch profile drain regs o header (by simpa using hl)
        rw [if_pos hexpects] at hrebuff
        exact hrebuff
    | forget items =>
      dsimp only at h ⊢
      split at h
      · cases h
      · rename_i hl
        cases h
        exact rebuffs_dispatchForgets profile drain regs o header items (by simpa using hl)
    | unsupported opcode =>
      cases h
      exact ⟨Hub.send_queue _ _ o.queueOpen, Hub.send_calls _ _, rfl, rfl, rfl⟩
    | init | destroy | interrupt => cases h

/-! ## The end of the stream -/

theorem endedBy_of_result {srv : Server σ} {s : Session σ} (hr : s.result = none)
    (o : s.hub.Open) {input : Input} (hr' : (s.step srv input).1.result = none) :
    s.endedBy srv input = none ∧ Course srv s (s.received srv input) (s.step srv input).1 := by
  rcases step_cases srv hr o input with h | ⟨s', ending, -, -, hover⟩
  · exact h
  · have hsome := hover.result
    rw [hr'] at hsome
    cases hsome

/-- Before the end nothing ends. -/
theorem endOf_append {srv : Server σ} {s : Session σ} (hr : s.result = none) (o : s.hub.Open)
    {before : List Input} (hr' : (s.run srv before).result = none) (after : List Input) :
    s.endOf srv (before ++ after) = (s.run srv before).endOf srv after := by
  induction before generalizing s with
  | nil => rfl
  | cons input before ih =>
    have hstep : (s.step srv input).1.result = none := by
      cases hs : (s.step srv input).1.result with
      | none => rfl
      | some r =>
        have hrun : (s.run srv (input :: before)).result = some r := result_run_of_ended hs before
        rw [hr'] at hrun
        cases hrun
    obtain ⟨hnone, hcourse⟩ := endedBy_of_result hr o hstep
    rw [List.cons_append, endOf, hnone, Option.none_or]
    exact ih hstep (hcourse.open o) hr'

/-- Frames that do not end the session bring the end no closer. -/
theorem endOf_of_front {srv : Server σ} {s t : Session σ} {front : List Bytes}
    (hr : s.result = none) (hr' : t.result = none) (hf : s.receive srv front = (t, none))
    (back : List Bytes) (after : List Input) :
    s.endOf srv (.frames (front ++ back) :: after) = t.endOf srv (.frames back :: after) := by
  have hended : s.ended = false := by simp [ended, hr]
  have hended' : t.ended = false := by simp [ended, hr']
  have hserve : s.serve srv (.frames (front ++ back)) = t.serve srv (.frames back) := by
    show s.receive srv (front ++ back) = t.receive srv back
    rw [receive_append, hf]
  rw [endOf, endOf, step_of_front hr hr' hf]
  simp [endedBy, outside, hended, hended', hserve]

/-- No handler of an operation is called at the end. -/
theorem calls_finish (srv : Server σ) (s : Session σ) (ending : Ending) :
    (s.finish srv ending).hub.calls = s.hub.calls := by
  have hclosed : ((s.dismissed srv).hub.closePending srv.drain).calls = s.hub.calls :=
    (Hub.calls_of_talks (Hub.talks_closePending srv.drain _)).trans (calls_dismissed srv s)
  have hwound : (s.windDown srv ending).hub.calls = s.hub.calls := by
    rcases ending with e | exit
    · exact hclosed
    · cases exit with
      | destroy unique => exact (Hub.send_calls _ (.success unique)).trans hclosed
      | unmounted => exact hclosed
      | shutdown => exact hclosed
  have hrest := Hub.calls_of_talks (talks_comeToRest srv (s.windDown srv ending))
  have henter : (s.finish srv ending).hub.calls =
      ((s.windDown srv ending).comeToRest srv).hub.calls :=
    (Hub.calls_record _ (.entered .terminated)).trans (List.append_nil _)
  rw [henter, hrest, hwound]

/-- When the stream ends after some frames, they were all handled, and then the end
begins; no handler is called later. -/
theorem close_after_frames (srv : Server σ) {s : Session σ} (hr : s.result = none)
    (o : s.hub.Open) (frames : List Bytes) :
    ∃ cut ending, s.endOf srv [.frames frames, .close] = some (cut, ending) ∧
      cut.hub.calls = (s.receive srv frames).1.hub.calls ∧
      cut.user = (s.receive srv frames).1.user ∧
      (s.run srv [.frames frames, .close]).hub.calls = cut.hub.calls := by
  have hended : s.ended = false := by simp [ended, hr]
  have hrest (t : Session σ) : (t.comeToRest srv).hub.calls = t.hub.calls :=
    Hub.calls_of_talks (talks_comeToRest srv t)
  have hserved : Served srv s _ _ := served_receive s frames
  cases hf : s.receive srv frames with
  | mk t ending =>
    rw [hf] at hserved
    cases ending with
    | some ending =>
      refine ⟨t, ending, ?_, rfl, rfl, ?_⟩
      · simp [endOf, endedBy, hended, outside, serve, hf]
      · have hstep : (s.step srv (.frames frames)).1 = (t.finish srv ending).comeToRest srv := by
          simp [step, outside, progress, serve, hended, hf]
        have hover : ((t.finish srv ending).comeToRest srv).ended = true :=
          ((over_finish t ending).course (course_comeToRest srv _)).result
        rw [run_cons, hstep, run_cons, step_of_ended hover]
        exact (hrest _).trans ((hrest _).trans (calls_finish srv t ending))
    | none =>
      have hcourse : Course srv s (s.receiptsOf srv frames) t := hserved
      have hresult : t.result = none := (hcourse.onward o.queueOpen).2.trans hr
      have hresult' : (t.comeToRest srv).result = none :=
        (course_comeToRest srv t).steady.2.trans hresult
      have hended' : (t.comeToRest srv).ended = false := by simp [ended, hresult']
      have hstep : (s.step srv (.frames frames)).1 = t.comeToRest srv := by
        simp [step, outside, progress, serve, hended, hf]
      refine ⟨t.comeToRest srv, (t.comeToRest srv).streamEnding, ?_, hrest t,
        user_comeToRest srv t, ?_⟩
      · simp [endOf, endedBy, hended, outside, serve, hf, hstep, hended']
      · have hclose : ((t.comeToRest srv).step srv .close).1 =
            ((t.comeToRest srv).finish srv (t.comeToRest srv).streamEnding).comeToRest srv := by
          simp [step, outside, progress, serve, hended']
        rw [run_cons, hstep, run_cons, hclose]
        exact (hrest _).trans (calls_finish srv _ _)

/-! ## The law -/

/-- Whatever was registered, each kind is served by the handler that came last, and only
the two kinds that carry no request cannot be registered. A session that runs hands out
the orders in its frames one after another, in the order of the frames, to the handlers
that came last; of all else no handler hears. What nobody serves is turned down at once,
with one error if the kernel waits. All frames that came before the stream ended are
handled before the end begins. A handler that is installed for the operations of one
kind makes no difference to one that is registered for the kind. -/
theorem every_order_goes_to_the_handler_installed_last (profile : Profile) (drain : Drain)
    (regs : List (Registration σ)) (user : σ) :
    let srv : Server σ := { table := .build regs, profile, drain }
    (∀ (t : Table σ) (handler : Handler σ),
      t.install (.register .init handler) = (t, some (.noRequest .init)) ∧
        t.install (.register .destroy handler) = (t, some (.noRequest .destroy))) ∧
    (∀ kind, Table.Holds (srv.table.resolve kind) (Registration.lastFor regs kind)) ∧
    srv.table.onInit = (regs.filterMap Registration.onInit?).getLast? ∧
    srv.table.onDestroy = (regs.filterMap Registration.onDestroy?).getLast? ∧
    (∀ (before : List Input) (front : List Bytes) (s : Session σ) (frames : List Bytes),
      ((start user).run srv before).result = none →
      ((start user).run srv before).receive srv front = (s, none) →
      s.hub.state = .running →
        let orders := ordersOf s.hub.minor frames
        Routed regs s (s.receive srv frames).1 orders ∧
        (∀ x ∈ s.receiptsOf srv frames, ∀ fs, x.rebuff? regs = some fs →
          Rebuffs x.session (x.session.handleFrame srv x.frame).1 fs) ∧
        ∃ cut ending,
          (start user).endOf srv (before ++ [.frames (front ++ frames), .close]) =
            some (cut, ending) ∧
          Routed regs s cut orders ∧
          ((start user).run srv (before ++ [.frames (front ++ frames), .close])).hub.calls =
            cut.hub.calls) ∧
    ∀ regs' : List (Registration σ), List.Forall₂ Registration.Like regs regs' → ∀ inputs,
      (start user).run srv inputs =
        (start user).run { table := .build regs', profile, drain } inputs := by
  refine ⟨fun t handler => ⟨t.install_of_bare rfl handler, t.install_of_bare rfl handler⟩,
    Table.holds_build regs, Table.onInit_build regs, Table.onDestroy_build regs, ?_,
    fun regs' h => run_same (Registration.same_build profile drain h) _⟩
  intro before front s frames hr hfront hs orders
  obtain ⟨xs, c⟩ := course_front hr hfront
  have o : s.hub.Open := c.open (open_start user)
  have hr' : s.result = none := (c.onward (open_start user).queueOpen).2
  have hrouted := routed_receive profile drain regs hs frames
  refine ⟨hrouted, ?_, ?_⟩
  · intro x hx fs hfs
    obtain ⟨earlier, later, -, hearlier⟩ := mem_receiptsOf_iff.mp hx
    have hsteady := steady_receive { table := .build regs, profile, drain } hs earlier
    rw [hearlier] at hsteady
    exact rebuffs_handleFrame profile drain regs (o.steady hsteady) (hsteady.state.trans hs) hfs
  · obtain ⟨cut, ending, hend, hcalls, huser, hlast⟩ := close_after_frames _ hr' o frames
    refine ⟨cut, ending, ?_, hrouted.thenIdle hcalls huser, ?_⟩
    · rw [endOf_append rfl (open_start user) hr, endOf_of_front hr hr' hfront, hend]
    · rw [run_append, run_cons, step_of_front hr hr' hfront]
      exact hlast

/-- A file system that writes down which handler was called, and for whom. -/
abbrev Trace := List (Nat × UInt64)

/-- A handler with a name, which fails every request that can fail. -/
def named (name : Nat) : Handler Trace := fun trace r _ =>
  (trace ++ [(name, r.unique)], .reply (if r.kind.expectsReply then .error .enoent else .none))

/-- Lookups have two handlers, one after the other, and forgets have one. -/
def twiceServed : List (Registration Trace) :=
  [.register .lookup (named 1), .register .forget (named 2), .register .init (named 3),
    .on .lookup fun trace r op _ => named 4 trace r op]

/-- The proposal, and then a lookup, two forgets at once, a question that nobody answers,
and an interrupt of nothing. -/
def manyOrders : List Bytes :=
  [aboutRoot .lookup 2 [97, 0],
    aboutRoot .batchForget 3 (Wire.encode ({ count := 2 } : Kernel.BatchForgetIn) ++
      Wire.encode (⟨5, 1⟩ : Kernel.ForgetOne) ++ Wire.encode (⟨6, 1⟩ : Kernel.ForgetOne)),
    aboutRoot .statfs 4 [], aboutRoot .interrupt 5 (Wire.encode (⟨2⟩ : Kernel.InterruptIn))]

/-- The later handler gets the lookup, each forget is one call, and two frames are turned
down. -/
theorem lookups_and_forgets_reach_their_handlers :
    let srv : Server Trace := { table := .build twiceServed }
    let s := (start []).run srv [.frames [proposal]]
    let inputs : List Input := [.frames [proposal], .frames manyOrders, .close]
    (∃ cut ending, (start []).endOf srv inputs = some (cut, ending) ∧
      Routed twiceServed s cut
        [⟨2, 0, 0, 0, .lookup 1 [97]⟩, ⟨3, 0, 0, 0, .forget 5 1⟩, ⟨3, 0, 0, 0, .forget 6 1⟩,
          ⟨4, 0, 0, 0, .statfs 1⟩]) ∧
    ((start []).endOf srv inputs).map (·.1.user) = some [(4, 2), (2, 3), (2, 3)] ∧
    ((start []).run srv inputs).hub.queue.map (fun f => (f.unique, f.error)) =
      [(1, 0), (2, -2), (4, -38), (5, -11)] := by
  intro srv s inputs
  have hr : s.result = none := Option.isNone_iff_eq_none.mp (by decide +kernel)
  have hs : s.hub.state = .running := by decide +kernel
  have horders : ordersOf s.hub.minor manyOrders =
      [⟨2, 0, 0, 0, .lookup 1 [97]⟩, ⟨3, 0, 0, 0, .forget 5 1⟩, ⟨3, 0, 0, 0, .forget 6 1⟩,
        ⟨4, 0, 0, 0, .statfs 1⟩] := by decide +kernel
  obtain ⟨-, -, -, -, hrun, -⟩ :=
    every_order_goes_to_the_handler_installed_last .dev .ascending twiceServed ([] : Trace)
  obtain ⟨-, -, cut, ending, hend, hrouted, -⟩ :=
    hrun [.frames [proposal]] [] s manyOrders hr rfl hs
  rw [horders] at hrouted
  exact ⟨⟨cut, ending, hend, hrouted⟩, by decide +kernel, by decide +kernel⟩

end Session

end Fuse
