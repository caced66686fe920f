-- What the parts of a session do: sending, handing an operation to its handler, and
-- the handshake that opens the connection.
import Fuse.Proofs.Course

namespace Fuse

/-! ## Parts that sending leaves alone -/

namespace Hub

variable (h : Hub) (f : Frame)

theorem send_eq : h.send f = h ∨ Alike (h.record (.sent f)) (h.send f) := by
  cases ho : h.queueOpen with
  | true => exact Or.inr (alike_send ho f)
  | false => exact Or.inl (send_of_closed ho f)

@[simp] theorem send_slots : (h.send f).slots = h.slots := by
  rcases h.send_eq f with he | ha
  · rw [he]
  · exact ha.slots

@[simp] theorem send_pending : (h.send f).pending = h.pending := by
  rcases h.send_eq f with he | ha
  · rw [he]
  · exact ha.pending

@[simp] theorem send_calls : (h.send f).calls = h.calls := by
  rcases h.send_eq f with he | ha
  · rw [he]
  · rw [ha.calls, calls_record]
    exact List.append_nil _

theorem send_queue (ho : h.queueOpen = true) : (h.send f).queue = h.queue ++ [f] := by
  rw [(alike_send ho f).queue, queue_record]
  rfl

variable {h}

/-! ## The first answer -/

/-- The first answer to a request, if nothing is wrong with it, is sent as it is. -/
theorem answer_of_checked {r : Request} {reply : Reply} (hp : h.progress r = .pending)
    (hc : r.check reply = none) (profile : Profile) :
    h.answer profile r (.reply reply) = ((h.markAnswered r).deliver r reply, none) := by
  unfold answer complete
  simp only [hc, settle, hp]

theorem queue_deliver (ho : h.queueOpen = true) (hr : h.reachable = true) (r : Request)
    (reply : Reply) :
    (h.deliver r reply).queue = h.queue ++ (reply.frame? r.unique h.minor).toList := by
  unfold deliver
  rw [if_pos hr]
  dsimp only
  show _ = h.queue ++ (reply.frame? r.unique (h.untrack r.unique).minor).toList
  cases reply.frame? r.unique (h.untrack r.unique).minor with
  | some f => exact send_queue (h.untrack r.unique) f ho
  | none => exact (List.append_nil _).symm

/-! ## A hub under way -/

/-- The session is not over, and it has a connection as soon as it runs. -/
structure Open (h : Hub) : Prop where
  queueOpen : h.queueOpen = true
  reachable : h.reachable = true
  running : h.state = .running ↔ h.connection.isSome = true
  state : h.state ≠ .terminated
  dismissals : h.dismissals = 0

theorem Open.steady {h' : Hub} (o : Open h) (l : Steady h h') : Open h' :=
  ⟨l.queueOpen.trans o.queueOpen, l.reachable.trans o.reachable,
    by rw [l.state, l.connection]; exact o.running, l.state ▸ o.state,
    l.dismissals.trans o.dismissals⟩

end Hub

/-- The frame says what went wrong, and nothing else. -/
def Frame.IsError (f : Frame) : Prop := ∃ e : Errno, e.valid = true ∧ f = .ofErrno f.unique e

namespace Session

variable {σ : Type} {srv : Server σ}

/-! ## Operations -/

/-- An operation that has a handler is a call first, and then the request is used;
one that has none is answered. -/
theorem dispatch_cases (srv : Server σ) (s : Session σ) (header : Kernel.InHeader)
    (op : Operation) :
    (∃ a, s.dispatch srv header op =
      ({ s with hub := (s.hub.enrol header op).1 }.answer srv (s.hub.enrol header op).2 a).1) ∨
    ∃ t u,
      Alike { s with
        hub := (s.hub.enrol header op).1.record (.called (s.hub.enrol header op).2 op) } t ∧
      Alike (t.use srv (s.hub.enrol header op).2 u).1 (s.dispatch srv header op) := by
  unfold dispatch
  dsimp only
  split
  · rename_i handler _
    let e := s.hub.enrol header op
    let called : Session σ :=
      { s with hub := e.1.record (.called e.2 op), user := (handler s.user e.2 op).1 }
    let outcome := (handler s.user e.2 op).2
    refine Or.inr ⟨outcome.notes.foldl note called, outcome.use, ?_, ?_⟩
    · refine Alike.trans ?_ (alike_notes called outcome.notes)
      exact ⟨.refl _, rfl, rfl, rfl⟩
    · split
      · exact alike_note _ _
      · exact .refl _
  · exact Or.inl ⟨_, rfl⟩

theorem steady_use (s : Session σ) (r : Request) (u : Use) :
    Hub.Steady s.hub (s.use srv r u).1.hub := by
  cases u with
  | answer a => exact Hub.steady_answer _ _ _ _
  | keep => exact .refl _
  | onInterrupt a => exact Hub.steady_wake _ _

theorem steady_dispatch (srv : Server σ) (s : Session σ) (header : Kernel.InHeader)
    (op : Operation) : Hub.Steady s.hub (s.dispatch srv header op).hub := by
  have he := Hub.steady_enrol s.hub header op
  rcases dispatch_cases srv s header op with ⟨a, h⟩ | ⟨t, u, ht, hu⟩
  · rw [h]
    exact he.trans (Hub.steady_answer _ _ _ _)
  · have hc := he.trans (Hub.steady_record _ (d := .called (s.hub.enrol header op).2 op) rfl
      (by simp))
    exact ((hc.trans ht.hub.steady).trans (steady_use _ _ _)).trans hu.hub.steady

theorem result_dispatch (s : Session σ) (header : Kernel.InHeader) (op : Operation) :
    (s.dispatch srv header op).result = s.result := by
  rcases dispatch_cases srv s header op with ⟨a, h⟩ | ⟨t, u, ht, hu⟩
  · rw [h]
    rfl
  · rw [hu.result]
    cases u <;> exact ht.result

/-- Forget several lookups of one message. -/
def dispatchForgets (srv : Server σ) (s : Session σ) (header : Kernel.InHeader)
    (items : List Kernel.ForgetOne) : Session σ :=
  items.foldl (fun s i => s.dispatch srv header (.forget i.nodeid i.nlookup)) s

theorem steady_dispatchForgets (s : Session σ) (header : Kernel.InHeader)
    (items : List Kernel.ForgetOne) :
    Hub.Steady s.hub (s.dispatchForgets srv header items).hub ∧
      (s.dispatchForgets srv header items).result = s.result := by
  induction items generalizing s with
  | nil => exact ⟨.refl _, rfl⟩
  | cons i items ih =>
    have h := ih (s.dispatch srv header (.forget i.nodeid i.nlookup))
    exact ⟨(steady_dispatch srv s header _).trans h.1, h.2.trans (result_dispatch s header _)⟩

/-! ## The handshake -/

theorem alike_greet (srv : Server σ) (s : Session σ) (config : Config) :
    Alike s (s.greet srv config).1 := by
  have hgreeted (user : σ) : Alike s ({ s with user }.record (.greeted config)) :=
    ⟨Hub.alike_record s.hub rfl, rfl, rfl, rfl⟩
  unfold greet
  split
  · exact .refl s
  · dsimp only
    split
    · exact hgreeted _
    · exact hgreeted _
    · exact (hgreeted _).trans (alike_note _ _)

/-- A handshake sends one answer, and leaves requests as they were. Only when it
succeeds there is a connection, and the session runs. -/
theorem handshake_spec (srv : Server σ) {s : Session σ} (unique : UInt64) (init : Kernel.InitIn)
    (ho : s.hub.queueOpen = true) :
    ∃ state connection f,
      Alike { s with hub := ({ s.hub with state, connection }).record (.sent f) }
        (s.handshake srv unique init).1 ∧
      f.unique = unique ∧ (f.IsError ∨ ∃ out minor, f = .ofInit unique out minor) ∧
      (connection = s.hub.connection ∧ (state = .created ∨ state = .initializing) ∨
        connection.isSome = true ∧ state = .running) := by
  have hinit := Hub.alike_enter s.hub .initializing
  have hinvalid (e : Errno) (he : e.valid = true) : (Frame.ofErrno unique e).IsError :=
    ⟨e, he, rfl⟩
  unfold handshake
  dsimp only
  split
  · refine ⟨.initializing, s.hub.connection, .ofErrno unique .eproto, ?_, rfl, ?_, ?_⟩
    · exact ⟨(hinit.trans (Hub.alike_note _ _)).sent ho _, rfl, rfl, rfl⟩
    · exact Or.inl (hinvalid _ (by decide))
    · exact Or.inl ⟨rfl, by simp⟩
  · split
    · let out : Kernel.InitOut :=
        { major := protocolMajor, minor := protocolMinor, maxReadahead := 0, flags := 0,
          maxBackground := 0, congestionThreshold := 0, maxWrite := 0, timeGran := 0,
          maxPages := 0 }
      refine ⟨.created, s.hub.connection, .ofInit unique out protocolMinor, ?_, rfl,
        Or.inr ⟨_, _, rfl⟩, ?_⟩
      · exact ⟨(hinit.sent ho _).entered .created, rfl, rfl, rfl⟩
      · exact Or.inl ⟨rfl, by simp⟩
    · have hgreet := alike_greet srv (s.enter .initializing)
        (.ofInit init (min init.minor protocolMinor))
      have hhub := hinit.trans hgreet.hub
      split
      · rename_i t e hg
        rw [hg] at hgreet hhub
        refine ⟨.initializing, s.hub.connection, .ofErrno unique (if e.valid then e else .eio), ?_,
          rfl, ?_, ?_⟩
        · exact ⟨(hhub.trans (Hub.alike_note _ _)).sent ho _, hgreet.kept, hgreet.tasks,
            hgreet.result⟩
        · refine Or.inl (hinvalid _ ?_)
          split
          · assumption
          · decide
        · exact Or.inl ⟨rfl, by simp⟩
      · rename_i t config hg
        rw [hg] at hgreet hhub
        split
        · refine ⟨.initializing, s.hub.connection, .ofErrno unique .eproto, ?_, rfl, ?_, ?_⟩
          · exact ⟨(hhub.trans (Hub.alike_note _ _)).sent ho _, hgreet.kept, hgreet.tasks,
              hgreet.result⟩
          · exact Or.inl (hinvalid _ (by decide))
          · exact Or.inl ⟨rfl, by simp⟩
        · rename_i connection _
          let f := Frame.ofInit unique connection.initOut (min init.minor protocolMinor)
          refine ⟨.running, some connection, f, ?_, rfl, Or.inr ⟨_, _, rfl⟩, ?_⟩
          · exact ⟨((hhub.connected (some connection)).sent ho f).entered .running, hgreet.kept,
              hgreet.tasks, hgreet.result⟩
          · exact Or.inr ⟨rfl, rfl⟩

end Session

end Fuse
