-- What comes of a handshake: it fails for the reason that the proposal and the file
-- system give, or the kernel has to try again, or there is a connection. From this
-- follows which frames end a session.
import Fuse.Proofs.Frames
import Fuse.Proofs.Journal
import Fuse.Proofs.Settling
import Fuse.Session.Opening

namespace Fuse

/-- Whether a deed can come between a proposal and the answer to it. -/
def Deed.isTalk : Deed → Bool
  | .greeted _ | .noted _ => true
  | _ => false

namespace Hub

/-! ## The calls of the handler -/

theorem greetings_record (h : Hub) (d : Deed) :
    (h.record d).greetings = h.greetings ++ d.greeting?.toList := by
  cases hd : d.greeting? <;> simp [greetings, record, hd]

theorem Writes.greetings {P : Deed → Bool} {h h' : Hub}
    (hP : ∀ d, P d = true → d.greeting? = none) (w : Writes P h h') :
    h'.greetings = h.greetings := by
  obtain ⟨ds, hds, hp⟩ := w.journal
  have hnone : ds.filterMap Deed.greeting? = [] := by
    rw [List.filterMap_eq_nil_iff]
    exact fun d hd => hP d (hp d hd)
  unfold Hub.greetings
  rw [hds, List.filterMap_append, hnone, List.append_nil]

theorem greetings_note (h : Hub) (e : Event) : (h.note e).greetings = h.greetings :=
  (greetings_record h (.noted e)).trans (List.append_nil _)

end Hub

namespace Session

open Hub

variable {σ : Type} {srv : Server σ}

/-! ## The opinion of the file system -/

/-- The session has heard the opinion of the file system, which was asked at most once,
and did nothing else. -/
structure Asked (s t : Session σ) : Prop where
  alike : Alike s t
  writes : Writes Deed.isTalk s.hub t.hub
  greetings : t.hub.greetings.length ≤ s.hub.greetings.length + 1

theorem Asked.refl (s : Session σ) : Asked s s := ⟨.refl s, .refl _, Nat.le_succ _⟩

theorem Asked.note {s t : Session σ} (a : Asked s t) (e : Event) : Asked s (t.note e) := by
  have hsame : (t.note e).hub.greetings = t.hub.greetings := greetings_note t.hub e
  exact ⟨a.alike.trans (alike_note t e), a.writes.trans (writes_record _ rfl),
    hsame ▸ a.greetings⟩

/-- The file system is asked, and its error is made one that the kernel knows. -/
theorem greet_spec (srv : Server σ) {s : Session σ} (hs : s.hub.state = .initializing)
    (init : Kernel.InitIn) :
    ∃ t, Asked s t ∧
      ((∃ config, srv.opinion s.user init = .ok config ∧
          s.greet srv (.ofInit init (min init.minor protocolMinor)) = (t, .ok config)) ∨
        ∃ e, srv.opinion s.user init = .error (if e.valid then e else .eio) ∧
          s.greet srv (.ofInit init (min init.minor protocolMinor)) = (t, .error e)) := by
  let config := Config.ofInit init (min init.minor protocolMinor)
  cases hhandler : srv.table.onInit with
  | none =>
    refine ⟨s, .refl s, Or.inl ⟨config, ?_, ?_⟩⟩
    · simp only [Server.opinion, hhandler]; rfl
    · simp only [greet, hhandler]; rfl
  | some handler =>
    let greeting := handler s.user .initializing config
    let t := { s with user := greeting.user }.record (.greeted config)
    have hgreeted : t.hub.greetings = s.hub.greetings ++ [config] :=
      greetings_record s.hub (.greeted config)
    have hasked : Asked s t :=
      ⟨⟨Hub.alike_record s.hub rfl, rfl, rfl, rfl⟩, writes_record s.hub rfl, by simp [hgreeted]⟩
    cases hv : greeting.verdict with
    | accept =>
      refine ⟨t, hasked, Or.inl ⟨config.applyAll greeting.settings, ?_, ?_⟩⟩
      · simp only [Server.opinion, hhandler, config, greeting] at hv ⊢
        rw [hv]
      · simp only [greet, hhandler, hs, config, greeting] at hv ⊢
        rw [hv]
    | refuse e =>
      refine ⟨t, hasked, Or.inr ⟨e, ?_, ?_⟩⟩
      · simp only [Server.opinion, hhandler, config, greeting] at hv ⊢
        rw [hv]
      · simp only [greet, hhandler, hs, config, greeting] at hv ⊢
        rw [hv]
    | panic p =>
      refine ⟨t.note (.initPanicked p), hasked.note _, Or.inr ⟨.eio, ?_, ?_⟩⟩
      · simp only [Server.opinion, hhandler, config, greeting] at hv ⊢
        rw [hv]
        rfl
      · simp only [greet, hhandler, hs, config, greeting] at hv ⊢
        rw [hv]

/-! ## The handshake -/

/-- What can come of a handshake: how the session is then, and whether it failed. -/
inductive Handshaken (srv : Server σ) (s : Session σ) (u : UInt64) (init : Kernel.InitIn) :
    Session σ → Option SessionError → Prop where
  | failed {t : Session σ} {e : SessionError} (ha : Asked (s.enter .initializing) t)
      (hf : srv.refusal? s.user init = some e) :
      Handshaken srv s u init (t.sendErrno u e.told) (some e)
  | tooNew {f : Frame} (hf : srv.refusal? s.user init = none) (hv : protocolMajor < init.major) :
      Handshaken srv s u init
        (Session.enter { s with hub := (s.enter .initializing).hub.send f } .created) none
  | agreed {t : Session σ} {config : Config} {connection : Connection}
      (ha : Asked (s.enter .initializing) t) (hf : srv.refusal? s.user init = none)
      (hv : init.major = protocolMajor) (ho : srv.opinion s.user init = .ok config)
      (hc : config.finish init.maxReadahead = .ok connection) :
      Handshaken srv s u init
        (Session.enter { t with
          hub := Hub.send { t.hub with connection := some connection }
            (.ofInit u connection.initOut connection.minor) } .running) none

/-- Whatever a handshake comes to is one of these. -/
theorem handshaken (srv : Server σ) (s : Session σ) (unique : UInt64) (init : Kernel.InitIn) :
    Handshaken srv s unique init (s.handshake srv unique init).1
      (s.handshake srv unique init).2 := by
  have hs : (s.enter .initializing).hub.state = .initializing := rfl
  unfold handshake
  dsimp only
  by_cases hold : init.major < protocolMajor
  · have hf : srv.refusal? s.user init = some (.unsupportedProtocol init.major init.minor) := by
      simp [Server.refusal?, hold]
    rw [if_pos hold]
    have ha := (Asked.refl (s.enter .initializing)).note (.unsupportedVersion init.major init.minor)
    have h := Handshaken.failed (u := unique) ha hf
    exact h
  · rw [if_neg hold]
    by_cases hnew : protocolMajor < init.major
    · have hf : srv.refusal? s.user init = none := by simp [Server.refusal?, hold, hnew]
      rw [if_pos hnew]
      exact .tooNew hf hnew
    · have hv : init.major = protocolMajor :=
        UInt32.le_antisymm (UInt32.not_lt.mp hnew) (UInt32.not_lt.mp hold)
      rw [if_neg hnew]
      obtain ⟨t, ht, ⟨config, ho, hg⟩ | ⟨e, ho, hg⟩⟩ := greet_spec srv hs init
      · obtain ⟨hminor, -⟩ := opinion_offer ho
        rw [hg]
        rcases finish_cases config init.maxReadahead with ⟨hwant, c, hc, hcm⟩ | ⟨hwant, hc⟩
        · have hf : srv.refusal? s.user init = none := by
            have ho' : srv.opinion s.user init = .ok config := ho
            simp [Server.refusal?, hold, hnew, ho', hwant]
          rw [hminor] at hcm
          simp only [hc, ← hcm]
          exact .agreed ht hf hv ho hc
        · have hf : srv.refusal? s.user init =
              some (.capability (config.want.diff config.capable)) := by
            have ho' : srv.opinion s.user init = .ok config := ho
            simp [Server.refusal?, hold, hnew, ho', hwant]
          have ha := ht.note (.handshakeFailed (.capability (config.want.diff config.capable)))
          have h := Handshaken.failed (u := unique) ha hf
          simp only [hc]
          exact h
      · have hf : srv.refusal? s.user init =
            some (.initRejected (if e.valid then e else .eio)) := by
          have ho' : srv.opinion s.user init = .error (if e.valid then e else .eio) := ho
          simp [Server.refusal?, hold, hnew, ho']
        have ha := ht.note (.initRefused (if e.valid then e else .eio))
        have h := Handshaken.failed (u := unique) ha hf
        rw [hg]
        exact h

/-! ## Frames that end a session -/

theorem read_of_message? (srv : Server σ) {x : Receipt σ} {m : Message} (h : x.message? = some m) :
    ∃ header, x.header? = some header ∧
      x.session.handleFrame srv x.frame = x.session.handleMessage srv header m := by
  unfold Receipt.message? Receipt.header? at h
  cases hd : decodeHeader x.frame with
  | error e =>
    rw [hd] at h
    cases h
  | ok header =>
    have hh : x.header? = some header := header?_of_decoded hd
    refine ⟨header, hh, ?_⟩
    rw [hd] at h
    cases hm : decodeMessage header x.frame x.session.hub.minor with
    | error e => simp [hm, Except.toOption] at h
    | ok m' =>
      have he : m' = m := by simpa [hm, Except.toOption] using h
      unfold handleFrame
      simp only [hd, hm, he]

/-- A frame that cannot be read does not end the session. -/
theorem ending_of_unread {x : Receipt σ} (h : x.message? = none) :
    (x.session.handleFrame srv x.frame).2 = none := by
  unfold handleFrame
  cases hd : decodeHeader x.frame with
  | error e => rfl
  | ok header =>
    cases hm : decodeMessage header x.frame x.session.hub.minor with
    | error e => simp only [hm]
    | ok m =>
      rw [message?_of_decoded (header?_of_decoded hd) hm] at h
      cases h

/-- A frame that cannot be read gets at most an error. -/
theorem talks_of_unread {x : Receipt σ} (h : x.message? = none) :
    Talks x.session.hub (x.session.handleFrame srv x.frame).1.hub := by
  unfold handleFrame
  cases hd : decodeHeader x.frame with
  | error e => exact talks_note _ _
  | ok header =>
    cases hm : decodeMessage header x.frame x.session.hub.minor with
    | error e =>
      simp only [hm]
      split
      · exact talks_note _ _
      · exact (talks_note _ _).trans (talks_send _ _)
    | ok m =>
      rw [message?_of_decoded (header?_of_decoded hd) hm] at h
      cases h

/-- A proposal is answered with the refusal that it meets, if it meets one. -/
theorem handshake_error (srv : Server σ) (s : Session σ) (unique : UInt64)
    (init : Kernel.InitIn) :
    (s.handshake srv unique init).2 = srv.refusal? s.user init := by
  have h := handshaken srv s unique init
  generalize (s.handshake srv unique init).1 = s' at h
  generalize (s.handshake srv unique init).2 = e at h
  cases h with
  | failed _ hf => exact hf.symm
  | tooNew hf _ => exact hf.symm
  | agreed _ hf _ _ _ => exact hf.symm

/-- A frame ends the session if it is the kernel's goodbye to a session that runs, or
if the handshake that it opens fails, and otherwise it does not. -/
theorem ending_handleFrame (srv : Server σ) (x : Receipt σ) (ending : Ending) :
    (x.session.handleFrame srv x.frame).2 = some ending ↔
      (∃ u, x.unique? = some u ∧ x.message? = some .destroy ∧
        x.session.hub.state = .running ∧ ending = .ok (.destroy u)) ∨
      ∃ e, x.failure? srv = some e ∧ ending = .error e := by
  cases hm : x.message? with
  | none =>
    rw [ending_of_unread hm]
    simp [Receipt.failure?, Receipt.proposal?, hm]
  | some m =>
    obtain ⟨header, hh, hframe⟩ := read_of_message? srv hm
    rw [hframe]
    unfold handleMessage handleMessage.tooEarly
    dsimp only
    cases m with
    | init proposal =>
      by_cases hc : x.session.hub.state = .created
      · have hf : x.failure? srv = srv.refusal? x.session.user proposal := by
          simp [Receipt.failure?, Receipt.proposal?, hm, hc]
        rw [hf]
        cases hr : srv.refusal? x.session.user proposal <;>
          simp [hc, handshake_error, hr, eq_comm]
      · simp [Receipt.failure?, Receipt.proposal?, hm, hc]
    | destroy =>
      have hu := unique?_of_header? hh
      by_cases hr : x.session.hub.state = .running
      · simp [Receipt.failure?, Receipt.proposal?, hm, hr, hu, eq_comm]
      · simp [Receipt.failure?, Receipt.proposal?, hm, hr]
    | interrupt target =>
      by_cases hr : x.session.hub.state = .running
      · unfold Session.interrupt
        cases hp : x.session.hub.pending.get? target <;>
          simp [Receipt.failure?, Receipt.proposal?, hm, hr, hp]
      · simp [Receipt.failure?, Receipt.proposal?, hm, hr]
    | forget items =>
      by_cases hr : x.session.hub.state = .running <;>
        simp [Receipt.failure?, Receipt.proposal?, hm, hr]
    | operation op =>
      by_cases hr : x.session.hub.state = .running <;>
        simp [Receipt.failure?, Receipt.proposal?, hm, hr]
    | unsupported opcode =>
      by_cases hr : x.session.hub.state = .running <;>
        simp [Receipt.failure?, Receipt.proposal?, hm, hr]

/-! ## What is written about a frame -/

/-- What a session writes into its journal about a frame: words, or the service of
operations while it runs, or what a handshake does. -/
inductive Written (srv : Server σ) (x : Receipt σ) : Session σ → Prop where
  | talks {t : Session σ} (w : Talks x.session.hub t.hub) : Written srv x t
  | serves {t : Session σ} (hr : x.session.hub.state = .running)
      (w : Writes Deed.isService x.session.hub t.hub) : Written srv x t
  | greets {unique : UInt64} {init : Kernel.InitIn} (hc : x.session.hub.state = .created)
      (hu : x.unique? = some unique) (hp : x.proposal? = some init) :
      Written srv x (x.session.handshake srv unique init).1

theorem written (srv : Server σ) (x : Receipt σ) :
    Written srv x (x.session.handleFrame srv x.frame).1 := by
  have hrefused (e : Event) (u : UInt64) (errno : Errno) :
      Talks x.session.hub ((x.session.note e).sendErrno u errno).hub :=
    (talks_note _ e).trans (talks_send _ _)
  cases hm : x.message? with
  | none => exact .talks (talks_of_unread hm)
  | some m =>
    obtain ⟨header, hh, hframe⟩ := read_of_message? srv hm
    rw [hframe]
    unfold handleMessage handleMessage.tooEarly
    dsimp only
    cases m with
    | init proposal =>
      by_cases hc : x.session.hub.state = .created
      · simp only [hc, if_true]
        exact .greets hc (unique?_of_header? hh) (by simp [Receipt.proposal?, hm, hc])
      · simp only [hc, if_false]
        exact .talks (hrefused _ _ _)
    | forget items =>
      by_cases hr : x.session.hub.state = .running
      · simp only [hr, if_true]
        exact .serves hr (writes_dispatchForgets srv _ header items)
      · simp only [hr, if_false]
        exact .talks (.refl _)
    | destroy =>
      by_cases hr : x.session.hub.state = .running
      · simp only [hr, if_true]
        exact .talks (.refl _)
      · simp only [hr, if_false]
        exact .talks (hrefused _ _ _)
    | interrupt target =>
      by_cases hr : x.session.hub.state = .running
      · simp only [hr, if_true]
        unfold Session.interrupt
        cases x.session.hub.pending.get? target with
        | some handle => exact .talks (writes_interrupt _ handle)
        | none => exact .talks (talks_send _ _)
      · simp only [hr, if_false]
        exact .talks (hrefused _ _ _)
    | operation op =>
      by_cases hr : x.session.hub.state = .running
      · simp only [hr, if_true]
        exact .serves hr (writes_dispatch srv _ header op)
      · simp only [hr, if_false]
        exact .talks (hrefused _ _ _)
    | unsupported opcode =>
      by_cases hr : x.session.hub.state = .running
      · simp only [hr, if_true]
        exact .talks (talks_send _ _)
      · simp only [hr, if_false]
        exact .talks (hrefused _ _ _)

end Session

end Fuse
