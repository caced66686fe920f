-- What a session can do with a frame: every way that the handling of a frame may
-- take, and what each of them changes. Whoever wants to know what frames keep looks
-- at these few cases.
import Fuse.Proofs.Dispatch
import Fuse.Proofs.Taking

namespace Fuse.Session

variable {σ : Type} {srv : Server σ}

/-! ## All that a frame can do -/

/-- What a session can do with a frame, and how it is to end then, if it is. -/
inductive Handled (srv : Server σ) (x : Receipt σ) : Session σ → Option Ending → Prop where
  /-- Without a header, or if it only forgets, there is nobody to tell. -/
  | dropped {s' : Session σ} (hd : x.due = 0) (ha : Alike x.session s') : Handled srv x s' none
  | refused {t : Session σ} {header : Kernel.InHeader} {e : Errno}
      (hh : x.header? = some header) (hd : x.due = 1) (ho : x.operation? = none)
      (ha : Alike x.session t) (he : e.valid = true) :
      Handled srv x (t.sendErrno header.unique e) none
  | forgotten {header : Kernel.InHeader} {items : List Kernel.ForgetOne}
      (hh : x.header? = some header) (hf : x.forgets = true)
      (hr : x.session.hub.state = .running) (hm : x.message? = some (.forget items)) :
      Handled srv x (x.session.dispatchForgets srv header items) none
  | dispatched {header : Kernel.InHeader} {op : Operation}
      (hh : x.header? = some header) (hd : x.due = 1) (ho : x.operation? = some op)
      (hr : x.session.hub.state = .running) (hk : op.kind.expectsReply = true)
      (hw : ∀ ino offset data file, op = .write ino offset data file →
        data.length < UInt32.size) :
      Handled srv x (x.session.dispatch srv header op) none
  | interrupted {target : UInt64} {handle : Nat} (hi : x.interrupts = true)
      (hp : x.session.hub.pending.get? target = some handle)
      (hm : x.message? = some (.interrupt target)) :
      Handled srv x { x.session with hub := x.session.hub.interrupt handle } none
  | dismissed {header : Kernel.InHeader} (hh : x.header? = some header) (hd : x.due = 1)
      (hm : x.message? = some .destroy) (hr : x.session.hub.state = .running) :
      Handled srv x x.session (some (.ok (.destroy header.unique)))
  | greeted {header : Kernel.InHeader} {init : Kernel.InitIn} (hh : x.header? = some header)
      (hd : x.due = 1) (hm : x.message? = some (.init init))
      (hc : x.session.hub.state = .created) :
      Handled srv x (x.session.handshake srv header.unique init).1
        ((x.session.handshake srv header.unique init).2.map .error)

/-! ## What was read -/

theorem decoded_gives {header : Kernel.InHeader} {frame : Bytes} {minor : UInt32} {m : Message}
    (h : decodeMessage header frame minor = .ok m) :
    (∃ op : Opcode, silentOpcode header.opcode = op.onlyForgets ∧ op.CanGive m) ∨
      silentOpcode header.opcode = false ∧ ∃ opcode, m = .unsupported opcode := by
  unfold decodeMessage at h
  unfold silentOpcode
  split at h
  · cases h
  · split at h
    · rename_i hop
      cases h
      rw [hop]
      exact Or.inr ⟨rfl, _, rfl⟩
    · rename_i op hop
      rw [hop]
      cases ht : op.takeMessage minor header.nodeid (frame.drop inHeaderSize) with
      | error e =>
        rw [ht] at h
        cases h
      | ok read =>
        rw [ht] at h
        cases h
        exact Or.inl ⟨op, rfl, takeMessage_gives ht⟩

/-- Only a forget comes with an opcode that never gets an answer. -/
theorem loud_of_decoded {header : Kernel.InHeader} {frame : Bytes} {minor : UInt32} {m : Message}
    (h : decodeMessage header frame minor = .ok m) (hne : ∀ items, m ≠ .forget items) :
    silentOpcode header.opcode = false := by
  rcases decoded_gives h with ⟨op, hs, hg⟩ | ⟨hs, -⟩
  · rw [hs]
    unfold Opcode.CanGive at hg
    split at hg
    · exact absurd rfl (hne _)
    · exact hg.elim
    · exact hg.1
    · exact hg
  · exact hs

/-- What an operation that was read can be. -/
theorem operation_of_decoded {header : Kernel.InHeader} {frame : Bytes} {minor : UInt32}
    {op : Operation} (h : decodeMessage header frame minor = .ok (.operation op)) :
    op.kind.expectsReply = true ∧ ∀ ino offset data file, op = .write ino offset data file →
      data.length < UInt32.size := by
  rcases decoded_gives h with ⟨opcode, -, hg⟩ | ⟨-, c, hc⟩
  · refine ⟨?_, ?_⟩
    · cases op <;> first | rfl | exact hg.elim
    · intro ino offset data file hop
      subst hop
      exact hg.2
  · cases hc

/-! ## Receipts -/

section

variable {x : Receipt σ} {header : Kernel.InHeader} {m : Message}

theorem header?_of_decoded (h : decodeHeader x.frame = .ok header) : x.header? = some header := by
  simp [Receipt.header?, h, Except.toOption]

theorem unique?_of_header? (hh : x.header? = some header) : x.unique? = some header.unique := by
  simp [Receipt.unique?, hh]

theorem message?_of_decoded (hh : x.header? = some header)
    (h : decodeMessage header x.frame x.session.hub.minor = .ok m) : x.message? = some m := by
  simp [Receipt.message?, hh, h, Except.toOption]

theorem message?_of_undecoded (hh : x.header? = some header) {e : DecodeError}
    (h : decodeMessage header x.frame x.session.hub.minor = .error e) : x.message? = none := by
  simp [Receipt.message?, hh, h, Except.toOption]

theorem due_of_silent (hh : x.header? = some header)
    (hs : silentOpcode header.opcode = true) : x.due = 0 := by
  simp [Receipt.due, Receipt.forgets, hh, hs]

/-- Whoever does not forget, and does not interrupt what is pending, gets an answer. -/
theorem due_of_loud (hh : x.header? = some header) (hs : silentOpcode header.opcode = false)
    (hi : x.interrupts = false) : x.due = 1 := by
  simp [Receipt.due, Receipt.forgets, unique?_of_header? hh, hh, hs, hi]

end

/-! ## All messages -/

/-- What the session does with a message, by the message and by its state. -/
theorem handled_message (srv : Server σ) {x : Receipt σ} {header : Kernel.InHeader} {m : Message}
    (hh : x.header? = some header)
    (h : decodeMessage header x.frame x.session.hub.minor = .ok m) :
    Handled srv x (x.session.handleMessage srv header m).1
      (x.session.handleMessage srv header m).2 := by
  have hm := message?_of_decoded hh h
  have hdue (hne : ∀ items, m ≠ .forget items) (hi : x.interrupts = false) : x.due = 1 :=
    due_of_loud hh (loud_of_decoded h hne) hi
  unfold handleMessage
  dsimp only
  cases m with
  | init proposal =>
    have hd := hdue (by simp) (by simp [Receipt.interrupts, hm])
    have ho : x.operation? = none := by simp [Receipt.operation?, hm]
    dsimp only
    split
    · rename_i hc
      exact .greeted hh hd hm hc
    · exact .refused hh hd ho (alike_note _ _) (by decide)
  | forget items =>
    have hs : silentOpcode header.opcode = true := by
      rcases decoded_gives h with ⟨op, hs, hg⟩ | ⟨-, c, hc⟩
      · exact hs.trans hg
      · cases hc
    dsimp only
    split
    · rename_i hr
      exact .forgotten hh (by simp [Receipt.forgets, hh, hs]) hr hm
    · exact .dropped (due_of_silent hh hs) (.refl _)
  | destroy =>
    have hd := hdue (by simp) (by simp [Receipt.interrupts, hm])
    have ho : x.operation? = none := by simp [Receipt.operation?, hm]
    dsimp only
    split
    · rename_i hr
      exact .dismissed hh hd hm hr
    · exact .refused hh hd ho (alike_note _ _) (by decide)
  | interrupt target =>
    have ho : x.operation? = none := by simp [Receipt.operation?, hm]
    dsimp only
    split
    · rename_i hr
      unfold Session.interrupt
      cases hp : x.session.hub.pending.get? target with
      | some handle => exact .interrupted (by simp [Receipt.interrupts, hm, hr, hp]) hp hm
      | none =>
        have hd := hdue (by simp) (by simp [Receipt.interrupts, hm, hp])
        exact .refused hh hd ho (.refl _) (by decide)
    · rename_i hr
      have hd := hdue (by simp) (by simp [Receipt.interrupts, hm, hr])
      exact .refused hh hd ho (alike_note _ _) (by decide)
  | operation op =>
    have hd := hdue (by simp) (by simp [Receipt.interrupts, hm])
    dsimp only
    split
    · rename_i hr
      obtain ⟨hk, hw⟩ := operation_of_decoded h
      exact .dispatched hh hd (by simp [Receipt.operation?, hm, hr]) hr hk hw
    · rename_i hr
      have ho : x.operation? = none := by simp [Receipt.operation?, hm, hr]
      exact .refused hh hd ho (alike_note _ _) (by decide)
  | unsupported opcode =>
    have hd := hdue (by simp) (by simp [Receipt.interrupts, hm])
    have ho : x.operation? = none := by simp [Receipt.operation?, hm]
    dsimp only
    split
    · exact .refused hh hd ho (.refl _) (by decide)
    · exact .refused hh hd ho (alike_note _ _) (by decide)

/-- Whatever the session does with a frame is one of the few things that it can do. -/
theorem handled (srv : Server σ) (s : Session σ) (frame : Bytes) :
    Handled srv ⟨s, frame⟩ (s.handleFrame srv frame).1 (s.handleFrame srv frame).2 := by
  let x : Receipt σ := ⟨s, frame⟩
  unfold handleFrame
  cases hd : decodeHeader frame with
  | error e =>
    refine .dropped ?_ (alike_note s _)
    simp [Receipt.due, Receipt.unique?, Receipt.header?, hd, Except.toOption]
  | ok header =>
    have hh : x.header? = some header := header?_of_decoded hd
    dsimp only
    cases hm : decodeMessage header frame s.hub.minor with
    | ok m => exact handled_message srv hh hm
    | error e =>
      have hmsg : x.message? = none := message?_of_undecoded hh hm
      dsimp only
      split
      · rename_i hs
        exact .dropped (due_of_silent hh hs) (alike_note s _)
      · rename_i hs
        have hi : x.interrupts = false := by simp [Receipt.interrupts, hmsg]
        have ho : x.operation? = none := by simp [Receipt.operation?, hmsg]
        exact .refused hh (due_of_loud hh (Bool.eq_false_iff.mpr hs) hi) ho (alike_note s _)
          (by decide)

/-! ## What frames keep -/

/-- A frame leaves the session where it stands, unless it opens the connection. -/
theorem steady_or_handshake (srv : Server σ) (s : Session σ) (frame : Bytes) :
    (Hub.Steady s.hub (s.handleFrame srv frame).1.hub ∧
      (s.handleFrame srv frame).1.result = s.result) ∨
    s.hub.state = .created ∧
      ∃ unique init, (s.handleFrame srv frame).1 = (s.handshake srv unique init).1 := by
  have hx := handled srv s frame
  generalize (s.handleFrame srv frame).1 = s' at hx
  generalize (s.handleFrame srv frame).2 = ending at hx
  cases hx with
  | dropped _ ha => exact Or.inl ⟨ha.hub.steady, ha.result⟩
  | refused _ _ _ ha =>
    exact Or.inl ⟨ha.hub.steady.trans (Hub.steady_send _ _), ha.result⟩
  | forgotten _ _ _ => exact Or.inl (steady_dispatchForgets s _ _)
  | dispatched _ _ _ _ _ _ => exact Or.inl ⟨steady_dispatch srv s _ _, result_dispatch s _ _⟩
  | interrupted _ _ => exact Or.inl ⟨Hub.steady_interrupt _ _, rfl⟩
  | dismissed _ _ _ _ => exact Or.inl ⟨.refl _, rfl⟩
  | greeted _ _ _ hc => exact Or.inr ⟨hc, _, _, rfl⟩

theorem onward_handshake (srv : Server σ) {s : Session σ} (ho : s.hub.queueOpen = true)
    (unique : UInt64) (init : Kernel.InitIn) :
    Hub.Onward s.hub (s.handshake srv unique init).1.hub ∧
      (s.handshake srv unique init).1.result = s.result := by
  obtain ⟨state, connection, f, ha, -, -, -⟩ := handshake_spec srv unique init ho
  have hsent := Hub.steady_sent (h := { s.hub with state, connection }) ho f
  exact ⟨(Hub.onward_stand _ _ _).trans (hsent.trans ha.hub.steady).toOnward, ha.result⟩

theorem onward_handleFrame (srv : Server σ) {s : Session σ} (ho : s.hub.queueOpen = true)
    (frame : Bytes) :
    Hub.Onward s.hub (s.handleFrame srv frame).1.hub ∧
      (s.handleFrame srv frame).1.result = s.result := by
  rcases steady_or_handshake srv s frame with ⟨hl, hr⟩ | ⟨-, unique, init, he⟩
  · exact ⟨hl.toOnward, hr⟩
  · rw [he]
    exact onward_handshake srv ho unique init

theorem open_handshake (srv : Server σ) {s : Session σ} (o : s.hub.Open)
    (hc : s.hub.state = .created) (unique : UInt64) (init : Kernel.InitIn) :
    (s.handshake srv unique init).1.hub.Open := by
  have honward := (onward_handshake srv o.queueOpen unique init).1
  obtain ⟨state, connection, f, ha, -, -, hstate⟩ := handshake_spec srv unique init o.queueOpen
  have hnot : ¬s.hub.connection.isSome = true := by
    rw [← o.running, hc]
    decide
  refine ⟨honward.queueOpen.trans o.queueOpen, honward.reachable.trans o.reachable, ?_, ?_,
    honward.dismissals.trans o.dismissals⟩
  · rw [ha.hub.state, ha.hub.connection]
    show state = .running ↔ connection.isSome = true
    rcases hstate with ⟨rfl, hs⟩ | ⟨hsome, rfl⟩
    · have hne : state ≠ .running := by
        rcases hs with rfl | rfl <;> decide
      exact ⟨fun h => absurd h hne, fun h => absurd h hnot⟩
    · exact ⟨fun _ => hsome, fun _ => rfl⟩
  · rw [ha.hub.state]
    show state ≠ .terminated
    rcases hstate with ⟨-, rfl | rfl⟩ | ⟨-, rfl⟩ <;> decide

theorem open_handleFrame (srv : Server σ) {s : Session σ} (o : s.hub.Open) (frame : Bytes) :
    (s.handleFrame srv frame).1.hub.Open := by
  rcases steady_or_handshake srv s frame with ⟨hl, -⟩ | ⟨hc, unique, init, he⟩
  · exact o.steady hl
  · rw [he]
    exact open_handshake srv o hc unique init

namespace Course

variable {s s' : Session σ} {xs : List (Receipt σ)}

/-- No course brings the end closer. -/
theorem onward (c : Course srv s xs s') (ho : s.hub.queueOpen = true) :
    Hub.Onward s.hub s'.hub ∧ s'.result = s.result := by
  induction c with
  | refl => exact ⟨.refl _, rfl⟩
  | @frame xs s' s'' frame _ h ih =>
    have hf := onward_handleFrame srv (ih.1.queueOpen.trans ho) frame
    rw [h] at hf
    exact ⟨ih.1.trans hf.1, hf.2.trans ih.2⟩
  | @answer xs s' _ place a ih =>
    have hs := steady_answerKept srv s' place a
    exact ⟨ih.1.trans hs.toOnward, (result_answerKept s' place a).trans ih.2⟩
  | @task xs s' _ handle ih =>
    have hs := steady_runTask srv s' handle
    exact ⟨ih.1.trans hs.toOnward, (result_runTask s' handle).trans ih.2⟩
  | quiet _ h ih => exact ⟨ih.1.trans h.hub.steady.toOnward, h.result.trans ih.2⟩

theorem «open» (c : Course srv s xs s') (o : s.hub.Open) : s'.hub.Open := by
  induction c with
  | refl => exact o
  | @frame xs s' s'' frame _ h ih =>
    have hf := open_handleFrame srv ih frame
    rwa [h] at hf
  | @answer xs s' _ place a ih => exact ih.steady (steady_answerKept srv s' place a)
  | @task xs s' _ handle ih => exact ih.steady (steady_runTask srv s' handle)
  | quiet _ h ih => exact ih.steady h.hub.steady

end Course

end Fuse.Session
