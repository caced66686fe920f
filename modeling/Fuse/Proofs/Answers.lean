-- Every frame that the kernel sees has the form that its request takes. This holds
-- for all that a run sends, up to the last word, and for all that anyone does with a
-- request later.
import Fuse.Proofs.Provenance
import Fuse.Proofs.Replies

namespace Fuse

namespace Hub

/-! ## Forgets -/

theorem queue_deliver_of_silent {h : Hub} {r : Request} {reply : Reply}
    (hc : r.check reply = none) (hk : r.kind.expectsReply = false) :
    (h.deliver r reply).queue = h.queue := by
  have hf : reply.frame? r.unique (h.untrack r.unique).minor = none := by
    rcases frame_of_check hc r.unique (h.untrack r.unique).minor with ⟨he, -⟩ | ⟨-, hf⟩
    · rw [hk] at he
      cases he
    · exact hf
  unfold deliver
  dsimp only
  rw [hf]
  split <;> rfl

/-- Whatever is done with a request that the kernel does not wait for, nothing is
sent. -/
theorem queue_answer_of_silent (profile : Profile) (h : Hub) {r : Request}
    (hk : r.kind.expectsReply = false) (a : Answer) :
    (h.answer profile r a).1.queue = h.queue := by
  by_cases hp : h.progress r = .pending
  · rcases answer_of_pending hp profile a with ⟨reply, hc, ha⟩ | ⟨-, ha⟩
    · rw [ha.queue, queue_deliver_of_silent hc hk]
      rfl
    · rw [ha.queue]
      rfl
  · exact (alike_answer hp profile a).queue

/-! ## Closing -/

theorem frames_of_closing {P : Frame → Prop} {ps : List (UInt64 × Nat)} {h : Hub}
    (ho : h.queueOpen = true)
    (hs : ∀ p ∈ ps, ∃ s, h.slots[p.2]? = some s ∧ P (.ofErrno s.unique .enotconn)) :
    ∀ f ∈ (ps.foldl (fun h p => h.closeOne p.2) h).queue, f ∈ h.queue ∨ P f := by
  induction ps generalizing h with
  | nil => exact fun f hf => Or.inl hf
  | cons p ps ih =>
    obtain ⟨s, hslot, hP⟩ := hs p List.mem_cons_self
    have hsteady := steady_closeOne h p.2
    have hrest := ih (hsteady.queueOpen.trans ho) (by
      intro q hq
      obtain ⟨t, ht, hPt⟩ := hs q (List.mem_cons_of_mem _ hq)
      obtain ⟨t', ht', hl⟩ := hsteady.slot q.2 t ht
      exact ⟨t', ht', hl.unique ▸ hPt⟩)
    intro f hf
    rcases hrest f hf with hf | hf
    · by_cases hpend : s.progress = .pending
      · rw [(closeOne_of_pending ho hslot hpend).1] at hf
        rcases List.mem_append.mp hf with hf | hf
        · exact Or.inl hf
        · rw [List.mem_singleton.mp hf]
          exact Or.inr hP
      · have hsame : h.closeOne p.2 = h := by
          unfold closeOne slot?
          rw [hslot]
          exact if_neg hpend
        rw [hsame] at hf
        exact Or.inl hf
    · exact Or.inr hf

/-- The session closes pending requests with errors, and with nothing else. -/
theorem frames_of_closePending (drain : Drain) {P : Frame → Prop} {h : Hub}
    (ho : h.queueOpen = true)
    (hs : ∀ p ∈ h.pending, ∃ s, h.slots[p.2]? = some s ∧ P (.ofErrno s.unique .enotconn)) :
    ∀ f ∈ (h.closePending drain).queue, f ∈ h.queue ∨ P f := by
  refine frames_of_closing (h := { h with pending := [] }) ho ?_
  intro p hp
  exact hs p ((drain.mem_order h.pending).mp hp)

end Hub

namespace Session

variable {σ : Type} {srv : Server σ}

/-! ## Handlers that answer -/

/-- A handler that answers at once, and with whose answer nothing is wrong, is heard. -/
theorem dispatch_of_reply {s : Session σ} (o : s.hub.Open) {header : Kernel.InHeader}
    {op : Operation} {handler : Handler σ} (hres : srv.table.resolve op.kind = some handler)
    {user : σ} {reply : Reply}
    (hserved : handler s.user (s.hub.enrol header op).2 op = (user, .reply reply))
    (hc : (s.hub.enrol header op).2.check reply = none) :
    (s.dispatch srv header op).user = user ∧
      (s.dispatch srv header op).hub.queue =
        s.hub.queue ++ (reply.frame? header.unique s.hub.minor).toList := by
  let e := s.hub.enrol header op
  let called : Session σ := { s with hub := e.1.record (.called e.2 op), user }
  have hpending : called.hub.progress e.2 = .pending := Hub.progress_enrol s.hub header op
  have hused : called.use srv e.2 (Outcome.reply reply).use =
      ({ called with hub := (called.hub.markAnswered e.2).deliver e.2 reply }, none) := by
    show called.answer srv e.2 (.reply reply) = _
    unfold answer
    rw [Hub.answer_of_checked hpending hc]
  have hdispatch : s.dispatch srv header op =
      { called with hub := (called.hub.markAnswered e.2).deliver e.2 reply } := by
    unfold dispatch
    dsimp only
    rw [hres]
    dsimp only
    rw [hserved]
    split
    · rename_i p hp
      change (called.use srv e.2 (Outcome.reply reply).use).2.or none = some p at hp
      rw [hused] at hp
      cases hp
    · exact congrArg Prod.fst hused
  have hdeliver := Hub.queue_deliver (h := called.hub.markAnswered e.2) o.queueOpen o.reachable
    e.2 reply
  have hcalled : (called.hub.markAnswered e.2).queue = s.hub.queue :=
    (Hub.queue_record e.1 (.called e.2 op)).trans (List.append_nil _)
  rw [hdispatch]
  exact ⟨rfl, hdeliver.trans (congrArg (· ++ _) hcalled)⟩

/-! ## The end -/

theorem attested_parting {xs : List (Receipt σ)} {s t : Session σ} (l : Attested xs s)
    (ht : Parting s t) : Attested xs t := by
  refine ⟨?_, ?_, ?_, ?_, ?_⟩
  · rw [ht.queue]
    exact l.queue
  · rw [ht.calls, ht.connection]
    exact l.called
  · rw [ht.pending, ht.calls]
    exact l.pending
  · simp [ht.state]
  · simp [ht.state]

/-- The farewell leaves all that is sent accounted for. -/
theorem attested_dismissed (srv : Server σ) {xs : List (Receipt σ)} {s : Session σ}
    (l : Attested xs s) (lr : Roll s) (ho : s.hub.queueOpen = true)
    (hr : s.hub.reachable = true) : Attested xs (s.dismissed srv) := by
  obtain ⟨t, ht, c⟩ := parting srv s
  exact c.attested_idle (attested_parting l ht) (roll_parting lr ht) (ht.queueOpen.trans ho)
    (ht.reachable.trans hr)

/-- A pending request that is closed gets an error in answer to its frame. -/
theorem Attested.closing {xs : List (Receipt σ)} {s : Session σ} (l : Attested xs s)
    (lr : Roll s) (p : UInt64 × Nat) (hp : p ∈ s.hub.pending) :
    ∃ t, s.hub.slots[p.2]? = some t ∧ ∃ x ∈ xs, x.Admits (.ofErrno t.unique .enotconn) := by
  obtain ⟨r, op, hc, hh, hk⟩ := l.pending p hp
  obtain ⟨-, c, -, x, hx, hst⟩ := l.called r op hc
  obtain ⟨⟨t, ht, hu⟩, hkind, -⟩ := lr.enrolled r op hc
  obtain ⟨hdue, hop⟩ := hst.due hk
  refine ⟨t, hh ▸ ht, x, hx, ?_⟩
  refine ⟨hu ▸ hst.unique, hdue, ?_⟩
  rw [hop]
  exact ⟨c, hst.connection, hkind ▸ hk, Or.inl (refuses_of_valid (by decide) _)⟩

/-- The last word answers the frame that it follows. -/
theorem admits_lastAnswer {x : Receipt σ} {s' : Session σ} {ending : Option Ending}
    (hx : Handled srv x s' ending) : ∀ f ∈ ending.elim [] lastAnswer, x.Admits f := by
  intro f hf
  cases hx with
  | dismissed hh hd hm _ =>
    have hop : x.operation? = none := by simp [Receipt.operation?, hm]
    rw [List.mem_singleton.mp hf]
    refine ⟨unique?_of_header? hh, hd, ?_⟩
    rw [hop]
    exact Or.inr (Or.inr ⟨hm, rfl⟩)
  | @greeted header init _ _ _ _ =>
    cases hfail : (x.session.handshake srv header.unique init).2 <;> rw [hfail] at hf <;> cases hf
  | _ => cases hf

theorem Ends.admits_lastAnswer {user : σ} {xs : List (Receipt σ)} {s : Session σ} {ending : Ending}
    (e : Ends srv (start user) xs s ending) :
    ∀ f ∈ lastAnswer ending, ∃ x ∈ xs, x.Admits f := by
  intro f hf
  cases e with
  | outside _ hd =>
    unfold lastAnswer at hf
    split at hf
    · exact absurd rfl (hd _)
    · cases hf
  | @frame xs s' _ frame _ c h =>
    have hx := handled srv s' frame
    rw [h] at hx
    exact ⟨_, List.mem_append_right _ List.mem_cons_self, Session.admits_lastAnswer hx f hf⟩

theorem attested_windDown {user : σ} {xs : List (Receipt σ)} {s : Session σ} {ending : Ending}
    (e : Ends srv (start user) xs s ending) :
    ∀ f ∈ (s.windDown srv ending).hub.queue, ∃ x ∈ xs, x.Admits f := by
  have o := e.open (open_start user)
  have lr := e.roll (roll_start user) rfl rfl
  have l := attested_dismissed srv e.attested lr o.queueOpen o.reachable
  have ld := roll_dismissed srv lr o.queueOpen o.reachable
  have ho := (queueOpen_dismissed srv s).trans o.queueOpen
  have hopen := (Hub.steady_closePending srv.drain (s.dismissed srv).hub).queueOpen.trans ho
  let closed := (s.dismissed srv).hub.closePending srv.drain
  have hclosed : ∀ f ∈ closed.queue, ∃ x ∈ xs, x.Admits f := by
    intro f hf
    rcases Hub.frames_of_closePending srv.drain (P := fun f => ∃ x ∈ xs, x.Admits f) ho
      (l.closing ld) f hf with hf | hf
    · exact l.queue f hf
    · exact hf
  intro f hf
  have hsplit : f ∈ closed.queue ∨ f ∈ lastAnswer ending := by
    rcases ending with err | exit
    · exact Or.inl hf
    · cases exit with
      | destroy unique =>
        have hq := Hub.send_queue closed (.success unique) hopen
        replace hf : f ∈ (closed.send (.success unique)).queue := hf
        rw [hq] at hf
        exact List.mem_append.mp hf
      | unmounted => exact Or.inl hf
      | shutdown => exact Or.inl hf
  rcases hsplit with hf | hf
  · exact hclosed f hf
  · exact e.admits_lastAnswer f hf

/-- Whatever is sent in a run answers a frame that was received. -/
theorem frames_are_admitted (srv : Server σ) (user : σ) (inputs : List Input) :
    ∀ f ∈ ((start user).run srv inputs).hub.queue,
      ∃ x ∈ (start user).receipts srv inputs, x.Admits f := by
  rcases run_cases srv (s := start user) rfl (open_start user) inputs with
    ⟨-, c⟩ | ⟨s', ending, -, he, ho⟩
  · exact c.attested.queue
  · rw [(ho.later.closed (windDown_closed s' ending)).2]
    exact attested_windDown he

/-! ## Later answers -/

/-- What anyone does with a request that a handler was called with sends nothing, or
it sends one frame, which has the form that the operation takes. -/
theorem form_of_answer {xs : List (Receipt σ)} {s : Session σ} (l : Attested xs s) (lr : Roll s)
    (ho : s.hub.queueOpen = true) (hr : s.hub.reachable = true) {r : Request} {op : Operation}
    (hc : (r, op) ∈ s.hub.calls) (a : Answer) :
    (s.answer srv r a).1.hub.queue = s.hub.queue ∨
      ∃ c f, s.hub.connection = some c ∧ f.unique = r.unique ∧ op.Admits c.minor f ∧
        (s.answer srv r a).1.hub.queue = s.hub.queue ++ [f] := by
  obtain ⟨hw, c, hconn, -⟩ := l.called r op hc
  obtain ⟨-, hkind, hlimit⟩ := lr.enrolled r op hc
  by_cases hp : s.hub.progress r = .pending
  · rcases Hub.answer_cases hp ho hr srv.profile a with
      ⟨-, reply, f, hcheck, hf, hu, ha⟩ | ⟨hk, -⟩
    · refine Or.inr ⟨c, f, hconn, hu, ?_, ?_⟩
      · rw [minor_of_connection hconn] at hf
        exact admits_of_check hkind hlimit hw hcheck hf
      · exact ha.queue.trans (Hub.queue_record _ _)
    · exact Or.inl (Hub.queue_answer_of_silent srv.profile s.hub hk a)
  · exact Or.inl (Hub.alike_answer hp srv.profile a).queue

/-! ## The law -/

/-- In every run, each frame that is sent is a well-formed answer to a request that
was received: it refuses the request with an error that the kernel knows, or it has
the form that the operation takes in the version of the connection. Whatever anyone
does later with a request that a handler was called with sends nothing or such a
frame, and nothing at all for a request that the kernel does not wait for. -/
theorem every_answer_is_well_formed (srv : Server σ) (user : σ) (inputs : List Input) :
    (∀ f ∈ ((start user).run srv inputs).hub.queue,
      ∃ x ∈ (start user).receipts srv inputs, x.Admits f) ∧
    (∀ r op, (r, op) ∈ ((start user).run srv inputs).hub.calls → ∀ a,
      (((start user).run srv inputs).answer srv r a).1.hub.queue =
        ((start user).run srv inputs).hub.queue ∨
      ∃ c f, ((start user).run srv inputs).hub.connection = some c ∧ f.unique = r.unique ∧
        op.Admits c.minor f ∧
        (((start user).run srv inputs).answer srv r a).1.hub.queue =
          ((start user).run srv inputs).hub.queue ++ [f]) ∧
    ∀ r : Request, r.kind = .forget → ∀ a,
      (((start user).run srv inputs).answer srv r a).1.hub.queue =
        ((start user).run srv inputs).hub.queue := by
  refine ⟨frames_are_admitted srv user inputs, ?_, ?_⟩
  · intro r op hc a
    rcases run_cases srv (s := start user) rfl (open_start user) inputs with
      ⟨-, c⟩ | ⟨s', ending, -, -, ho⟩
    · have o := c.open (open_start user)
      exact form_of_answer c.attested (c.roll (roll_start user) rfl rfl) o.queueOpen o.reachable
        hc a
    · have hanswer := Hub.steady_answer srv.profile ((start user).run srv inputs).hub r a
      exact Or.inl (hanswer.closed ho.queueOpen).2
  · intro r hk a
    refine Hub.queue_answer_of_silent srv.profile _ ?_ a
    rw [hk]
    rfl

/-- A file system that answers with three bytes, whatever it is asked. -/
def careless : Server Unit where
  table := { handler := fun _ => some fun user _ _ => (user, .reply (.data [1, 2, 3])) }
  profile := .release

/-- The kernel asks for a list of names and has space for two bytes. -/
def spaceForTwo : List Input :=
  [.frames [proposal, aboutRoot .listxattr 2 (Wire.encode ({ size := 2 } : Kernel.GetxattrIn))]]

/-- Where there is space for two bytes, three bytes become an error. -/
theorem three_bytes_for_two_are_refused :
    Frame.ofErrno 2 .eio ∈ ((start ()).run careless spaceForTwo).hub.queue ∧
      ∃ x ∈ (start ()).receipts careless spaceForTwo, x.Admits (.ofErrno 2 .eio) := by
  have hsent : Frame.ofErrno 2 .eio ∈ ((start ()).run careless spaceForTwo).hub.queue := by
    decide +kernel
  exact ⟨hsent, (every_answer_is_well_formed careless () spaceForTwo).1 _ hsent⟩

end Session

end Fuse
