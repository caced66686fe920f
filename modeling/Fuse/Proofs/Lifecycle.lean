-- The life of a session, from its first frame to its result. A handshake that fails is
-- the last thing that the kernel hears of, and the result of a run says how it ended.
import Fuse.Proofs.Orderly
import Fuse.Proofs.Provenance

namespace Fuse

variable {σ : Type} {srv : Server σ}

/-! ## Handshakes that fail -/

/-- The kernel is told about a failure with an error number that it knows. -/
theorem valid_told {user : σ} {init : Kernel.InitIn} {e : SessionError}
    (h : srv.refusal? user init = some e) : e.told.valid = true := by
  have hopinion : ∀ e, srv.opinion user init = .error e → e.valid = true := by
    intro e he
    unfold Server.opinion at he
    dsimp only at he
    split at he
    · cases he
    · split at he
      · cases he
      · cases he
        split
        · assumption
        · decide
      · cases he
        decide
  have hproto : Errno.eproto.valid = true := by decide
  unfold Server.refusal? at h
  split at h
  · cases h
    exact hproto
  · split at h
    · cases h
    · split at h
      · rename_i e he
        cases h
        exact hopinion e he
      · split at h
        · cases h
        · cases h
          exact hproto

namespace Session

open Hub

/-- Before the session runs there is no connection, and nobody waits. -/
theorem fresh_of_created {user : σ} {xs : List (Receipt σ)} {s : Session σ}
    (c : Course srv (start user) xs s) (hc : s.hub.state = .created) :
    s.hub.connection = none ∧ s.hub.pending = [] := by
  have o := c.open (open_start user)
  have l := c.attested
  refine ⟨?_, ?_⟩
  · have hnot : ¬s.hub.connection.isSome = true := by
      rw [← o.running, hc]
      decide
    simpa using hnot
  · apply List.eq_nil_iff_forall_not_mem.mpr
    intro p hp
    obtain ⟨r, op, hcall, -⟩ := l.pending p hp
    rw [l.calls_of_created hc] at hcall
    cases hcall

/-- Without a connection and without requests there is nothing to wind down. -/
theorem windDown_of_fresh (srv : Server σ) {s : Session σ} (hn : s.hub.connection = none)
    (hp : s.hub.pending = []) (e : SessionError) :
    s.windDown srv (.error e) =
      { s with hub := { s.hub.enter .destroying with queueOpen := false } } := by
  have hfarewell : (s.enter .destroying).farewell srv = s.enter .destroying := by
    have hn' : (s.enter .destroying).hub.connection = none := hn
    unfold farewell
    rw [hn']
  have hclose : (s.hub.enter .destroying).closePending srv.drain = s.hub.enter .destroying := by
    have hp' : (s.hub.enter .destroying).pending = [] := hp
    unfold closePending
    rw [hp', Drain.order_nil, List.foldl_nil]
    rw [← hp']
  unfold windDown
  rw [hfarewell]
  dsimp only
  rw [enter, hclose]

/-- A proposal that is taken up comes to a new session. -/
theorem read_of_proposal? (srv : Server σ) {x : Receipt σ} {init : Kernel.InitIn}
    (h : x.proposal? = some init) :
    x.session.hub.state = .created ∧ ∃ unique, x.unique? = some unique ∧
      x.session.handleFrame srv x.frame =
        ((x.session.handshake srv unique init).1,
          (x.session.handshake srv unique init).2.map .error) := by
  unfold Receipt.proposal? at h
  split at h
  · rename_i proposal hm
    by_cases hc : x.session.hub.state = .created
    · rw [if_pos hc] at h
      cases h
      obtain ⟨header, hh, hframe⟩ := read_of_message? srv hm
      refine ⟨hc, header.unique, unique?_of_header? hh, ?_⟩
      rw [hframe]
      simp [handleMessage, hc]
    · rw [if_neg hc] at h
      cases h
  · cases h

/-- How a session is when the handshake that a frame opens has failed. -/
theorem handleFrame_of_failure {user : σ} {xs : List (Receipt σ)} {x : Receipt σ}
    {e : SessionError} (c : Course srv (start user) xs x.session)
    (hf : x.failure? srv = some e) :
    ∃ t unique, x.session.handleFrame srv x.frame = (t, some (.error e)) ∧
      x.unique? = some unique ∧ t.hub.connection = none ∧ t.hub.pending = [] ∧
      t.hub.queue = x.session.hub.queue ++ [.ofErrno unique e.told] ∧ t.hub.dismissals = 0 := by
  obtain ⟨init, hp, hrefusal⟩ := Option.bind_eq_some_iff.mp hf
  obtain ⟨hc, unique, hu, hframe⟩ := read_of_proposal? srv hp
  have o := c.open (open_start user)
  obtain ⟨hn, hpending⟩ := fresh_of_created c hc
  have h := handshaken srv x.session unique init
  have herror := handshake_error srv x.session unique init
  rw [hrefusal] at herror
  rw [herror] at h hframe
  generalize (x.session.handshake srv unique init).1 = s' at h hframe
  cases h with
  | @failed t _ ha _ =>
    have hopen : t.hub.queueOpen = true := ha.alike.hub.queueOpen.trans o.queueOpen
    have henter := alike_enter x.session.hub .initializing
    have hqueue : t.hub.queue = x.session.hub.queue := ha.alike.hub.queue.trans henter.queue
    have hsteady := steady_send t.hub (.ofErrno unique e.told)
    refine ⟨_, unique, hframe, hu, ?_, ?_, ?_, ?_⟩
    · exact hsteady.connection.trans (ha.alike.hub.connection.trans hn)
    · exact (send_pending _ _).trans (ha.alike.hub.pending.trans hpending)
    · exact (send_queue _ _ hopen).trans (hqueue ▸ rfl)
    · have hasked := ha.alike.hub.steady.dismissals
      exact hsteady.dismissals.trans (hasked.trans (henter.steady.dismissals.trans o.dismissals))

/-- A handshake that fails is answered with one error, and then the session is over. -/
theorem run_of_failure {user : σ} {inputs : List Input} {x : Receipt σ} {e : SessionError}
    (hx : x ∈ (start user).receipts srv inputs) (hf : x.failure? srv = some e) :
    (∃ unique, x.unique? = some unique ∧ ((start user).run srv inputs).hub.queue =
      x.session.hub.queue ++ [.ofErrno unique e.told]) ∧
    ((start user).run srv inputs).result = some (.error e) ∧
    ((start user).run srv inputs).hub.journal.count .dismissed = 0 := by
  obtain ⟨xs, c⟩ := course_receipt hx
  obtain ⟨t, unique, hframe, hu, hn, hp, hqueue, hdismissals⟩ := handleFrame_of_failure c hf
  obtain ⟨after, hrun⟩ := run_of_ending hx hframe
  have hrest := course_comeToRest srv (t.finish srv (.error e))
  have hover := over_run srv ((over_finish t (.error e)).course hrest) after
  rw [← hrun] at hover
  have henter := (alike_enter t.hub .destroying).steady
  have hdown := windDown_of_fresh srv hn hp e
  refine ⟨⟨unique, hu, ?_⟩, ?_, ?_⟩
  · rw [(hover.later.closed (windDown_closed t _)).2, hdown, ← hqueue]
    exact (alike_enter t.hub .destroying).queue
  · rw [hrun]
    exact result_run_of_ended hrest.steady.2 after
  · rw [← dismissals_eq_count, hover.dismissals, hdown, ← hdismissals]
    exact henter.dismissals

/-! ## The law -/

/-- The state of a session goes from step to step, and each deed is lawful where it
stands: the session waits for another proposal only after one that was too new, runs
only after it told the kernel what was agreed, and hands operations on only while it
runs, never after the end began. It is over just when the run has a result, and the
result says which input ended it, and how. A handshake that fails is answered with one
error, which the kernel knows, and nothing else is said after it. -/
theorem every_run_keeps_to_its_life (srv : Server σ) (user : σ) (inputs : List Input) :
    ((start user).run srv inputs).hub.states.IsChain State.Step ∧
    ((start user).run srv inputs).hub.states.getLast? =
      some ((start user).run srv inputs).hub.state ∧
    Orderly ((start user).receipts srv inputs) ((start user).run srv inputs).hub.journal ∧
    (∀ before after r op, ((start user).run srv inputs).hub.journal =
      before ++ .entered .destroying :: after → .called r op ∉ after) ∧
    (((start user).run srv inputs).hub.state = .terminated ↔
      ((start user).run srv inputs).result.isSome = true) ∧
    (∀ r, ((start user).run srv inputs).result = some r ↔
      ∃ before input after, inputs = before ++ input :: after ∧
        ((start user).run srv before).result = none ∧
        Concludes srv ((start user).run srv before) input r) ∧
    ∀ x ∈ (start user).receipts srv inputs, ∀ e, x.failure? srv = some e →
      ((start user).run srv inputs).result = some (.error e) ∧ e.told.valid = true ∧
        ∃ unique, x.unique? = some unique ∧ ((start user).run srv inputs).hub.queue =
          x.session.hub.queue ++ [.ofErrno unique e.told] := by
  have r := recorded_run srv (recorded_start user) inputs
  rw [List.nil_append] at r
  refine ⟨r.onRecord.orderly.isChain, ?_, r.onRecord.orderly, ?_, ?_, ?_, ?_⟩
  · rw [← r.onRecord.state]
    unfold Hub.states State.after
    rw [List.getLast?_cons]
  · intro before after req op h
    have o := r.onRecord.orderly
    rw [h] at o
    exact o.no_call_after_ending req op
  · rcases run_cases srv (s := start user) rfl (open_start user) inputs with
      ⟨-, c⟩ | ⟨s', ending, -, -, hover⟩
    · have hstate := (c.open (open_start user)).state
      have hresult := (c.onward (open_start user).queueOpen).2
      rw [hresult]
      exact ⟨fun h => absurd h hstate, fun h => by cases h⟩
    · exact ⟨fun _ => hover.result, fun _ => hover.state⟩
  · exact result_run_iff rfl (open_start user) (Or.inl rfl) inputs
  · intro x hx e hf
    obtain ⟨hqueue, hresult, -⟩ := run_of_failure hx hf
    obtain ⟨init, -, hrefusal⟩ := Option.bind_eq_some_iff.mp hf
    exact ⟨hresult, valid_told hrefusal, hqueue⟩

end Session

end Fuse
