-- What a session writes into its journal, and in which state. Answers, tasks and the
-- writer only add frames and lines of the log, wherever they come from; a frame that
-- is handled adds calls as well, unless it opens the connection. None of them changes
-- the state.
import Fuse.Proofs.Dispatch

namespace Fuse

/-- Whether a deed is a frame for the kernel or a line of the log. -/
def Deed.isWord : Deed → Bool
  | .sent _ | .noted _ => true
  | _ => false

/-- Whether a deed can be part of serving an operation. -/
def Deed.isService : Deed → Bool
  | .called .. | .sent _ | .noted _ => true
  | _ => false

theorem Deed.isService_of_isWord {d : Deed} (h : d.isWord = true) : d.isService = true := by
  cases d <;> first | rfl | cases h

namespace Hub

/-- The second hub is in the state of the first, and all that was done since is of
one sort. -/
structure Writes (P : Deed → Bool) (h h' : Hub) : Prop where
  state : h'.state = h.state
  journal : ∃ ds, h'.journal = h.journal ++ ds ∧ ∀ d ∈ ds, P d = true

/-- Only frames and lines of the log were written. -/
abbrev Talks (h h' : Hub) : Prop := Writes Deed.isWord h h'

variable {P Q : Deed → Bool} {h h' h'' : Hub}

namespace Writes

/-- Nothing was written. -/
theorem of_eq (hs : h'.state = h.state) (hj : h'.journal = h.journal) : Writes P h h' :=
  ⟨hs, [], by simp [hj], by simp⟩

theorem refl (h : Hub) : Writes P h h := of_eq rfl rfl

theorem trans (a : Writes P h h') (b : Writes P h' h'') : Writes P h h'' := by
  obtain ⟨ds, hds, hp⟩ := a.journal
  obtain ⟨es, hes, hq⟩ := b.journal
  refine ⟨b.state.trans a.state, ds ++ es, by simp [hes, hds], ?_⟩
  intro d hd
  rcases List.mem_append.mp hd with hd | hd
  · exact hp d hd
  · exact hq d hd

theorem mono (hpq : ∀ d, P d = true → Q d = true) (a : Writes P h h') : Writes Q h h' := by
  obtain ⟨ds, hds, hp⟩ := a.journal
  exact ⟨a.state, ds, hds, fun d hd => hpq d (hp d hd)⟩

end Writes

theorem writes_record (h : Hub) {d : Deed} (hd : P d = true) : Writes P h (h.record d) :=
  ⟨rfl, [d], rfl, by simpa using hd⟩

/-! ## Answers -/

theorem talks_note (h : Hub) (e : Event) : Talks h (h.note e) := writes_record h rfl

theorem writes_wake (h : Hub) (r : Runner) : Writes P h (h.wake r) := by
  unfold wake
  split <;> exact .of_eq rfl rfl

theorem talks_send (h : Hub) (f : Frame) : Talks h (h.send f) := by
  unfold send
  split
  · exact (writes_record h rfl).trans (writes_wake _ _)
  · exact .refl h

theorem writes_markAnswered (h : Hub) (r : Request) : Writes P h (h.markAnswered r) :=
  .of_eq rfl rfl

theorem talks_deliver (h : Hub) (r : Request) (reply : Reply) : Talks h (h.deliver r reply) := by
  have huntrack : Talks h (h.untrack r.unique) := .of_eq rfl rfl
  unfold deliver
  split
  · dsimp only
    split
    · exact huntrack.trans (talks_send _ _)
    · exact huntrack
  · exact .refl h

theorem talks_abandon (h : Hub) (r : Request) : Talks h (h.abandon r) := by
  unfold abandon
  split
  · dsimp only
    split
    · have hnoted := (writes_markAnswered h r).trans (talks_note _ (.dropped r.unique r.kind))
      exact hnoted.trans (talks_deliver _ r (.error .eio))
    · exact writes_markAnswered h r
  · exact .refl h

theorem talks_settle (profile : Profile) (h : Hub) (r : Request) (reply : Reply) :
    Talks h (h.settle profile r reply).1 := by
  unfold settle
  split
  · exact (writes_markAnswered h r).trans (talks_deliver _ r reply)
  · exact .refl h
  · exact talks_note _ _

theorem talks_answer (profile : Profile) (h : Hub) (r : Request) (a : Answer) :
    Talks h (h.answer profile r a).1 := by
  cases a with
  | drop => exact talks_abandon h r
  | reply reply =>
    unfold answer complete
    dsimp only
    split
    · exact talks_settle profile h r reply
    · rename_i v _
      have hnoted := talks_note h (.violation r.unique r.kind v)
      cases profile with
      | dev => exact hnoted.trans (talks_abandon _ r)
      | release => exact hnoted.trans (talks_settle .release _ r r.substitute)

/-! ## Interrupts and the end -/

theorem writes_interrupt (h : Hub) (handle : Nat) : Writes P h (h.interrupt handle) := by
  have hslot : Writes P h (h.updateSlot handle fun s => { s with interrupted := true }) :=
    .of_eq rfl rfl
  exact hslot.trans (writes_wake _ _)

theorem talks_closeOne (h : Hub) (handle : Nat) : Talks h (h.closeOne handle) := by
  unfold closeOne
  split
  · split
    · have hslot : Talks h (h.updateSlot handle fun s => { s with progress := .closed }) :=
        .of_eq rfl rfl
      exact (hslot.trans (writes_interrupt _ handle)).trans (talks_send _ _)
    · exact .refl h
  · exact .refl h

theorem talks_closePending (drain : Drain) (h : Hub) : Talks h (h.closePending drain) := by
  have hempty : Talks h { h with pending := [] } := .of_eq rfl rfl
  exact closePending_keeps drain hempty fun g hg p _ => hg.trans (talks_closeOne g p.2)

end Hub

namespace Session

open Hub

variable {σ : Type} {srv : Server σ}

/-! ## Sessions -/

theorem talks_notes (s : Session σ) (es : List Event) : Talks s.hub (es.foldl note s).hub := by
  induction es generalizing s with
  | nil => exact .refl _
  | cons e es ih => exact (talks_note s.hub e).trans (ih (s.note e))

theorem talks_answerKept (srv : Server σ) (s : Session σ) (place : Nat) (a : Answer) :
    Talks s.hub (s.answerKept srv place a).1.hub := by
  rcases answerKept_cases srv s place a with h | ⟨r, -, h⟩
  · rw [h]
    exact .refl _
  · rw [h]
    exact talks_answer _ _ _ _

theorem talks_answerAllKept (srv : Server σ) (s : Session σ) (answers : List (Nat × Answer)) :
    Talks s.hub (s.answerAllKept srv answers).1.hub := by
  induction answers generalizing s with
  | nil => exact .refl _
  | cons p rest ih => exact (talks_answerKept srv s p.1 p.2).trans (ih _)

theorem talks_runTask (srv : Server σ) (s : Session σ) (handle : Nat) :
    Talks s.hub (s.runTask srv handle).hub := by
  rcases runTask_cases srv s handle with h | ⟨t, -, h⟩
  · rw [h]
    exact .refl _
  · rw [h]
    exact talks_answer _ _ _ _

theorem talks_flush (s : Session σ) : Talks s.hub s.flush.hub := by
  have hcarry (t : Session σ) (f : Frame) : Talks t.hub (t.carry f).hub := by
    unfold carry
    dsimp only
    split
    · exact talks_note _ _
    · exact .refl _
  exact flush_keeps (motive := fun t => Talks s.hub t.hub)
    (fun t f ht => ht.trans (hcarry t f)) (.refl _)

theorem talks_comeToRest (srv : Server σ) (s : Session σ) :
    Talks s.hub (s.comeToRest srv).hub := by
  have hclear (t : Session σ) : Talks t.hub t.clearTurns.hub := .of_eq rfl rfl
  exact comeToRest_keeps (motive := fun t => Talks s.hub t.hub) (fun t ht => ht.trans (hclear t))
    (fun t ht => ht.trans (talks_flush t))
    (fun t handle ht => ht.trans (talks_runTask srv t handle)) (.refl _)

theorem talks_outside (srv : Server σ) (s : Session σ) (input : Input) :
    Talks s.hub (s.outside srv input).1.hub := by
  cases input with
  | answer place a => exact talks_answerKept srv s place a
  | _ => exact .of_eq rfl rfl

theorem talks_use (srv : Server σ) (s : Session σ) (r : Request) (u : Use) :
    Talks s.hub (s.use srv r u).1.hub := by
  cases u with
  | answer a => exact talks_answer _ _ _ _
  | keep => exact .refl _
  | onInterrupt a => exact writes_wake _ _

/-- Serving an operation is at most one call, and words. -/
theorem writes_dispatch (srv : Server σ) (s : Session σ) (header : Kernel.InHeader)
    (op : Operation) : Writes Deed.isService s.hub (s.dispatch srv header op).hub := by
  have henrol : Writes Deed.isService s.hub (s.hub.enrol header op).1 := .of_eq rfl rfl
  have hwords {h h' : Hub} (t : Talks h h') : Writes Deed.isService h h' :=
    t.mono fun d => Deed.isService_of_isWord
  unfold dispatch
  dsimp only
  split
  · rename_i handler _
    let e := s.hub.enrol header op
    let called : Session σ :=
      { s with hub := e.1.record (.called e.2 op), user := (handler s.user e.2 op).1 }
    let outcome := (handler s.user e.2 op).2
    have hcalled : Writes Deed.isService s.hub called.hub := henrol.trans (writes_record _ rfl)
    have hnotes := talks_notes called outcome.notes
    have huse := hnotes.trans (talks_use srv (outcome.notes.foldl note called) e.2 outcome.use)
    split
    · exact hcalled.trans (hwords (huse.trans (talks_note _ _)))
    · exact hcalled.trans (hwords huse)
  · have hanswer := talks_answer srv.profile (s.hub.enrol header op).1 (s.hub.enrol header op).2
      (.reply (if op.kind.expectsReply then .error .enosys else .none))
    exact henrol.trans (hwords hanswer)

theorem writes_dispatchForgets (srv : Server σ) (s : Session σ) (header : Kernel.InHeader)
    (items : List Kernel.ForgetOne) :
    Writes Deed.isService s.hub (s.dispatchForgets srv header items).hub := by
  induction items generalizing s with
  | nil => exact .refl _
  | cons i items ih => exact (writes_dispatch srv s header _).trans (ih _)

end Session

end Fuse
