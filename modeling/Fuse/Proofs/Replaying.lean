-- What a file system keeps is what its handlers left, called one after the other: nothing
-- else changes it, if neither the handshake nor the farewell does.
import Fuse.Proofs.Routing
import Fuse.Session.Duties

namespace Fuse

variable {σ : Type}

/-! ## Handlers one after the other -/

/-- What the file system keeps after some calls of its handlers. -/
def Table.replay (t : Table σ) (user : σ) (calls : List (Request × Operation)) : σ :=
  calls.foldl (fun user c => ((t.resolve c.2.kind).map fun h => (h user c.1 c.2).1).getD user) user

/-- The call is one of a handler, and the request says what the operation is. -/
structure Table.Calls (t : Table σ) (c : Request × Operation) : Prop where
  handler : (t.resolve c.2.kind).isSome = true
  kind : c.1.kind = c.2.kind
  limit : c.1.limit = c.2.replyLimit

/-- Between two moments some handlers were called, and what the file system keeps is what
they left. -/
def Replays (t : Table σ) (s s' : Session σ) : Prop :=
  ∃ cs, s'.hub.calls = s.hub.calls ++ cs ∧ s'.user = t.replay s.user cs ∧ ∀ c ∈ cs, t.Calls c

namespace Replays

variable {t : Table σ} {s s' s'' : Session σ}

theorem idle (hc : s'.hub.calls = s.hub.calls) (hu : s'.user = s.user) : Replays t s s' :=
  ⟨[], by rw [hc, List.append_nil], hu, fun _ h => absurd h List.not_mem_nil⟩

theorem trans (a : Replays t s s') (b : Replays t s' s'') : Replays t s s'' := by
  obtain ⟨cs, hcalls, huser, hcs⟩ := a
  obtain ⟨cs', hcalls', huser', hcs'⟩ := b
  refine ⟨cs ++ cs', ?_, ?_, ?_⟩
  · rw [hcalls', hcalls, List.append_assoc]
  · rw [huser', huser, Table.replay, Table.replay, Table.replay, List.foldl_append]
  · intro c hc
    rcases List.mem_append.mp hc with h | h
    · exact hcs c h
    · exact hcs' c h

end Replays

namespace Session

variable {srv : Server σ} {s : Session σ}

/-! ## Frames -/

/-- An operation that has a handler is one call, and the file system keeps what the handler
left. One that has none is no call. -/
theorem calls_dispatch (srv : Server σ) (s : Session σ) (header : Kernel.InHeader)
    (op : Operation) :
    let cs := if (srv.table.resolve op.kind).isSome then [((s.hub.enrol header op).2, op)] else []
    (s.dispatch srv header op).hub.calls = s.hub.calls ++ cs ∧
      (s.dispatch srv header op).user = srv.table.replay s.user cs := by
  intro cs
  let e := s.hub.enrol header op
  unfold dispatch
  dsimp only
  cases hres : srv.table.resolve op.kind with
  | none =>
    let reply : Reply := if op.kind.expectsReply then .error .enosys else .none
    have hcs : cs = [] := by simp [cs, hres]
    rw [hcs, List.append_nil]
    exact ⟨Hub.calls_answer srv.profile e.1 e.2 (.reply reply), rfl⟩
  | some handler =>
    let called : Session σ :=
      { s with hub := e.1.record (.called e.2 op), user := (handler s.user e.2 op).1 }
    let outcome := (handler s.user e.2 op).2
    let noted := outcome.notes.foldl note called
    have hcs : cs = [(e.2, op)] := by simp [cs, hres, e]
    have hused : (noted.use srv e.2 outcome.use).1.hub.calls = s.hub.calls ++ cs ∧
        (noted.use srv e.2 outcome.use).1.user = srv.table.replay s.user cs := by
      have htalks := (talks_notes called outcome.notes).trans (talks_use srv noted e.2 outcome.use)
      rw [hcs]
      constructor
      · rw [Hub.calls_of_talks htalks]
        exact Hub.calls_record _ _
      · rw [user_use, user_notes]
        simp [Table.replay, hres, called]
    dsimp only
    split
    · exact ⟨(Hub.calls_of_talks (Hub.talks_note _ _)).trans hused.1, hused.2⟩
    · exact hused

theorem replays_dispatch (srv : Server σ) (s : Session σ) (header : Kernel.InHeader)
    (op : Operation) : Replays srv.table s (s.dispatch srv header op) := by
  obtain ⟨hcalls, huser⟩ := calls_dispatch srv s header op
  refine ⟨_, hcalls, huser, ?_⟩
  intro c hc
  split at hc
  · rename_i hres
    obtain rfl := List.mem_singleton.mp hc
    exact ⟨hres, rfl, rfl⟩
  · cases hc

theorem replays_dispatchForgets (srv : Server σ) (s : Session σ) (header : Kernel.InHeader)
    (items : List Kernel.ForgetOne) :
    Replays srv.table s (s.dispatchForgets srv header items) := by
  induction items generalizing s with
  | nil => exact .idle rfl rfl
  | cons i items ih => exact (replays_dispatch srv s header _).trans (ih _)

theorem replays_handshake (hq : srv.table.Quiet) (o : s.hub.queueOpen = true) (unique : UInt64)
    (init : Kernel.InitIn) : Replays srv.table s (s.handshake srv unique init).1 := by
  obtain ⟨state, connection, f, ha, -⟩ := handshake_spec srv unique init o
  -- The shape of the handshake tells what is called, but not what the file system keeps.
  refine .idle ?_ ?_
  · exact ha.hub.calls.trans
      ((Hub.calls_record { s.hub with state, connection } (.sent f)).trans (List.append_nil _))
  · have hgreet (t : Session σ) (config : Config) : (t.greet srv config).1.user = t.user := by
      unfold greet
      split
      · rfl
      · rename_i handler hinit
        have hkept := (hq.onInit handler hinit t.user t.hub.state config).1
        dsimp only
        split <;> exact hkept
    unfold handshake
    dsimp only
    split
    · rfl
    split
    · rfl
    have hgreeted := hgreet (s.enter .initializing) (.ofInit init (min init.minor protocolMinor))
    split
    · rename_i t e hg
      rw [hg] at hgreeted
      exact hgreeted
    · rename_i t config hg
      rw [hg] at hgreeted
      split <;> exact hgreeted

theorem replays_handleFrame (hq : srv.table.Quiet) (o : s.hub.queueOpen = true) (frame : Bytes) :
    Replays srv.table s (s.handleFrame srv frame).1 := by
  cases hread : readFrame? s.hub.minor frame with
  | none =>
    obtain ⟨ht, hu, -⟩ := handleFrame_of_unread srv hread
    exact .idle (Hub.calls_of_talks ht) hu
  | some p =>
    obtain ⟨header, m⟩ := p
    rw [handleFrame_of_read srv hread]
    have hearly : Replays srv.table s (handleMessage.tooEarly s header).1 :=
      .idle (Hub.calls_of_talks ((Hub.talks_note _ _).trans (Hub.talks_send _ _))) rfl
    unfold handleMessage
    cases m with
    | init proposal =>
      dsimp only
      split
      · exact replays_handshake hq o header.unique proposal
      · exact .idle (Hub.calls_of_talks ((Hub.talks_note _ _).trans (Hub.talks_send _ _))) rfl
    | destroy =>
      dsimp only
      split
      · exact .idle rfl rfl
      · exact hearly
    | interrupt target =>
      dsimp only [Session.interrupt]
      split
      · cases s.hub.pending.get? target with
        | some handle => exact .idle (Hub.calls_of_talks (Hub.writes_interrupt _ _)) rfl
        | none => exact .idle (Hub.calls_of_talks (Hub.talks_send _ _)) rfl
      · exact hearly
    | forget items =>
      dsimp only
      split
      · exact replays_dispatchForgets srv s header items
      · exact .idle rfl rfl
    | operation op =>
      dsimp only
      split
      · exact replays_dispatch srv s header op
      · exact hearly
    | unsupported opcode =>
      dsimp only
      split
      · exact .idle (Hub.calls_of_talks (Hub.talks_send _ _)) rfl
      · exact hearly

theorem replays_receive (hq : srv.table.Quiet) (o : s.hub.queueOpen = true)
    (frames : List Bytes) : Replays srv.table s (s.receive srv frames).1 := by
  induction frames generalizing s with
  | nil => exact .idle rfl rfl
  | cons frame frames ih =>
    have hframe := replays_handleFrame hq o frame
    have honward := (onward_handleFrame srv o frame).1
    rw [receive_cons]
    cases hf : s.handleFrame srv frame with
    | mk t ending =>
      rw [hf] at hframe honward
      cases ending with
      | none => exact hframe.trans (ih (honward.queueOpen.trans o))
      | some ending => exact hframe

/-! ## Inputs -/

theorem replays_comeToRest (srv : Server σ) (s : Session σ) :
    Replays srv.table s (s.comeToRest srv) :=
  .idle (Hub.calls_of_talks (talks_comeToRest srv s)) (user_comeToRest srv s)

theorem replays_outside (srv : Server σ) (s : Session σ) (input : Input) :
    Replays srv.table s (s.outside srv input).1 := by
  cases input with
  | answer place a =>
    show Replays srv.table s (s.answerKept srv place a).1
    rcases answerKept_cases srv s place a with h | ⟨r, -, h⟩
    · rw [h]
      exact .idle rfl rfl
    · rw [h]
      exact .idle (Hub.calls_answer _ _ _ _) rfl
  | _ => exact .idle rfl rfl

theorem replays_finish (hq : srv.table.Quiet) (s : Session σ) (ending : Ending) :
    Replays srv.table s (s.finish srv ending) := by
  refine .idle (calls_finish srv s ending) ((user_comeToRest srv _).trans ?_)
  show ((s.enter .destroying).farewell srv).user = s.user
  unfold farewell
  split
  · rename_i handler _ hdestroy
    have hkept := (hq.onDestroy handler hdestroy s.user (s.enter .destroying).hub.state).2.2
    dsimp only
    split <;> exact hkept _
  · rfl

theorem replays_step (hq : srv.table.Quiet) (o : s.result = none → s.hub.queueOpen = true)
    (input : Input) : Replays srv.table s (s.step srv input).1 := by
  have hout := replays_outside srv s input
  unfold step progress
  dsimp only
  split
  · exact hout.trans (replays_comeToRest srv _)
  · rename_i hgoing
    have hserve : Replays srv.table (s.outside srv input).1
        ((s.outside srv input).1.serve srv input).1 := by
      cases input with
      | frames frames =>
        have hresult : s.result = none := by simpa [ended, result_outside] using hgoing
        exact replays_receive hq (o hresult) frames
      | _ => exact .idle rfl rfl
    split
    · rename_i t ht
      rw [ht] at hserve
      exact (hout.trans hserve).trans (replays_comeToRest srv t)
    · rename_i t ending ht
      rw [ht] at hserve
      exact ((hout.trans hserve).trans (replays_finish hq t ending)).trans
        (replays_comeToRest srv _)

/-! ## Runs -/

theorem replays_run (srv : Server σ) (hq : srv.table.Quiet) (user : σ) (inputs : List Input) :
    Replays srv.table (start user) ((start user).run srv inputs) := by
  induction inputs using List.reverseRecOn with
  | nil => exact .idle rfl rfl
  | append_singleton inputs input ih =>
    rw [run_concat]
    refine ih.trans (replays_step hq ?_ input)
    intro hr
    exact ((course_run hr).onward (open_start user).queueOpen).1.queueOpen

theorem replays_receipt (srv : Server σ) (hq : srv.table.Quiet) {user : σ} {inputs : List Input}
    {x : Receipt σ} (hx : x ∈ (start user).receipts srv inputs) :
    Replays srv.table (start user) x.session := by
  obtain ⟨before, input, after, rfl, hreceived⟩ := mem_receipts_iff.mp hx
  obtain ⟨hr, frames, rfl, hof⟩ := mem_received_iff.mp hreceived
  obtain ⟨front, back, -, hfront⟩ := mem_receiptsOf_iff.mp hof
  have hopen := ((course_run hr).onward (open_start user).queueOpen).1.queueOpen
  have hreceive := replays_receive hq hopen front
  rw [hfront] at hreceive
  exact (replays_run srv hq user before).trans hreceive

end Session

/-- From the start on, all that was called and what it left. -/
theorem Replays.of_start {t : Table σ} {user : σ} {s : Session σ}
    (h : Replays t (.start user) s) :
    s.user = t.replay user s.hub.calls ∧ ∀ c ∈ s.hub.calls, t.Calls c := by
  obtain ⟨cs, hcalls, huser, hcs⟩ := h
  obtain rfl : s.hub.calls = cs := hcalls
  exact ⟨huser, hcs⟩

end Fuse
