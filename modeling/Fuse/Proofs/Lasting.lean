-- What a run keeps of its journal. Whatever words, the service of operations, the
-- handshake and the steps of the end keep, a whole run keeps. One such law: the file
-- system is asked about the parameters of a connection once, and so is the connection
-- opened.
import Mathlib.Order.Basic
import Fuse.Proofs.Handshake
import Fuse.Session.Opening

namespace Fuse

namespace Hub

variable {P : Deed → Bool} {h h' : Hub}

/-! ## What a journal holds of some deeds -/

theorem Writes.count {d : Deed} (hP : P d = false) (w : Writes P h h') :
    h'.journal.count d = h.journal.count d := by
  obtain ⟨ds, hds, hp⟩ := w.journal
  have hnone : ds.count d = 0 := by
    rw [List.count_eq_zero]
    intro hd
    rw [hp d hd] at hP
    cases hP
  rw [hds, List.count_append, hnone, Nat.add_zero]

theorem greetings_enter (h : Hub) (state : State) : (h.enter state).greetings = h.greetings :=
  (greetings_record { h with state } (.entered state)).trans (List.append_nil _)

theorem openings_enter (h : Hub) (state : State) :
    (h.enter state).journal.count (.entered .running) =
      h.journal.count (.entered .running) + if state = .running then 1 else 0 := by
  show (h.journal ++ [Deed.entered state]).count (.entered .running) = _
  rw [List.count_append, List.count_singleton]
  cases state <;> rfl

theorem greetings_send (h : Hub) (f : Frame) : (h.send f).greetings = h.greetings :=
  (talks_send h f).greetings fun d hd => by cases d <;> first | rfl | cases hd

end Hub

namespace Session

open Hub

variable {σ : Type} {srv : Server σ}

/-! ## Runs -/

/-- What each step of a session keeps. -/
structure Lasting (srv : Server σ) (Q : Hub → Prop) : Prop where
  talks : ∀ {h h'}, Q h → Talks h h' → Q h'
  serves : ∀ {h h'}, Q h → h.state = .running → Writes Deed.isService h h' → Q h'
  greets : ∀ {s : Session σ}, Q s.hub → s.hub.state = .created → ∀ unique init,
    Q (s.handshake srv unique init).1.hub
  dismisses : ∀ {h}, Q h → Q (h.record .dismissed)
  ends : ∀ {h}, Q h → ∀ state, state = .destroying ∨ state = .terminated → Q (h.enter state)

namespace Lasting

variable {Q : Hub → Prop} {s : Session σ}

theorem receive (k : Lasting srv Q) (q : Q s.hub) (frames : List Bytes) :
    Q (s.receive srv frames).1.hub := by
  induction frames generalizing s with
  | nil => exact q
  | cons frame frames ih =>
    have hframe : Q (s.handleFrame srv frame).1.hub := by
      have hw := written srv ⟨s, frame⟩
      dsimp only at hw
      generalize (s.handleFrame srv frame).1 = t at hw
      cases hw with
      | talks w => exact k.talks q w
      | serves hr w => exact k.serves q hr w
      | greets hc _ _ => exact k.greets q hc _ _
    unfold Session.receive
    generalize s.handleFrame srv frame = g at hframe
    obtain ⟨t, ending⟩ := g
    cases ending with
    | none => exact ih hframe
    | some ending => exact hframe

theorem finish (k : Lasting srv Q) (q : Q s.hub) (ending : Ending) :
    Q (s.finish srv ending).hub := by
  have hdestroying : Q (s.enter .destroying).hub := k.ends q .destroying (Or.inl rfl)
  have hfarewell : Q ((s.enter .destroying).farewell srv).hub := by
    unfold farewell
    split
    · rename_i handler _ _
      have hanswers := k.talks (k.dismisses hdestroying) (talks_answerAllKept srv
        ((s.enter .destroying).record .dismissed)
        (handler (s.enter .destroying).user (s.enter .destroying).hub.state).answers)
      dsimp only
      split
      · exact k.talks hanswers (talks_note _ _)
      · exact hanswers
    · exact hdestroying
  have hclosed : Q (((s.enter .destroying).farewell srv).hub.closePending srv.drain) :=
    k.talks hfarewell (talks_closePending srv.drain _)
  have hsilent {h : Hub} (hq : Q h) : Q { h with queueOpen := false } :=
    k.talks hq (.of_eq rfl rfl)
  have hdown : Q (s.windDown srv ending).hub := by
    unfold windDown
    dsimp only
    split
    · exact hsilent (k.talks hclosed (talks_send _ _))
    · exact hsilent hclosed
  have hend : Q (((s.windDown srv ending).comeToRest srv).enter .terminated).hub :=
    k.ends (k.talks hdown (talks_comeToRest srv _)) .terminated (Or.inr rfl)
  exact k.talks hend (.of_eq rfl rfl)

theorem step (k : Lasting srv Q) (q : Q s.hub) (input : Input) : Q (s.step srv input).1.hub := by
  have hout : Q (s.outside srv input).1.hub := k.talks q (talks_outside srv s input)
  have hserve : Q ((s.outside srv input).1.serve srv input).1.hub := by
    cases input with
    | frames frames => exact k.receive hout frames
    | _ => exact hout
  have hprogress : Q ((s.outside srv input).1.progress srv input).hub := by
    unfold Session.progress
    generalize (s.outside srv input).1.serve srv input = g at hserve
    obtain ⟨t, ending⟩ := g
    cases ending with
    | none => exact hserve
    | some ending => exact k.finish hserve ending
  unfold Session.step
  dsimp only
  split
  · exact k.talks hout (talks_comeToRest srv _)
  · exact k.talks hprogress (talks_comeToRest srv _)

theorem run (k : Lasting srv Q) (q : Q s.hub) (inputs : List Input) :
    Q (s.run srv inputs).hub := by
  induction inputs generalizing s with
  | nil => exact q
  | cons input inputs ih => exact ih (k.step q input)

end Lasting

/-! ## Once -/

/-- The file system was asked at most once, and the connection opened at most once. As
long as a proposal may still come, neither has happened. -/
structure Once (h : Hub) : Prop where
  greetings : h.greetings.length ≤ 1
  openings : h.journal.count (.entered .running) ≤ 1
  created : h.state = .created → h.greetings = [] ∧ h.journal.count (.entered .running) = 0

/-- What neither asks nor opens the connection leaves it at that. -/
theorem Once.writes {P : Deed → Bool} {h h' : Hub} (o : Once h) (w : Writes P h h')
    (hasks : ∀ d, P d = true → d.greeting? = none) (hopens : P (.entered .running) = false) :
    Once h' := by
  have hg := w.greetings hasks
  have hc := w.count hopens
  refine ⟨hg ▸ o.greetings, hc ▸ o.openings, ?_⟩
  rw [w.state, hg, hc]
  exact o.created

/-- A handshake asks at most once and opens the connection at most once. Whoever may try
again was not asked. -/
theorem once_handshake (srv : Server σ) {s : Session σ} (o : Once s.hub)
    (hc : s.hub.state = .created) (unique : UInt64) (init : Kernel.InitIn) :
    Once (s.handshake srv unique init).1.hub := by
  have hsaid {h : Hub} (f : Frame) :
      (h.send f).journal.count (.entered .running) = h.journal.count (.entered .running) :=
    (talks_send h f).count rfl
  obtain ⟨hnone, hzero⟩ := o.created hc
  have hgreetings : (s.enter .initializing).hub.greetings = [] :=
    (greetings_enter s.hub .initializing).trans hnone
  have hopenings : (s.enter .initializing).hub.journal.count (.entered .running) = 0 :=
    (openings_enter s.hub .initializing).trans (congrArg (· + 0) hzero)
  have hasked {t : Session σ} (ha : Asked (s.enter .initializing) t) :
      t.hub.greetings.length ≤ 1 ∧ t.hub.journal.count (.entered .running) = 0 := by
    have hg := ha.greetings
    rw [hgreetings] at hg
    exact ⟨hg, (ha.writes.count rfl).trans hopenings⟩
  have h := handshaken srv s unique init
  generalize (s.handshake srv unique init).1 = s' at h
  generalize (s.handshake srv unique init).2 = failed at h
  cases h with
  | @failed t e ha _ =>
    obtain ⟨hg, hn⟩ := hasked ha
    have hstate : (t.sendErrno unique e.told).hub.state = .initializing :=
      (talks_send _ _).state.trans ha.writes.state
    refine ⟨(congrArg List.length (greetings_send _ _)).trans_le hg, ?_, ?_⟩
    · exact ((hsaid _).trans hn).trans_le (Nat.zero_le 1)
    · intro hcreated
      rw [hstate] at hcreated
      cases hcreated
  | @tooNew f _ _ =>
    have hg : (((s.enter .initializing).hub.send f).enter .created).greetings = [] :=
      ((greetings_enter _ _).trans (greetings_send _ _)).trans hgreetings
    have hn : (((s.enter .initializing).hub.send f).enter .created).journal.count
        (.entered .running) = 0 :=
      (openings_enter _ _).trans (congrArg (· + 0) ((hsaid f).trans hopenings))
    exact ⟨(congrArg List.length hg).trans_le (Nat.zero_le 1), hn.trans_le (Nat.zero_le 1),
      fun _ => ⟨hg, hn⟩⟩
  | @agreed t _ c ha _ _ _ _ =>
    obtain ⟨hg, hn⟩ := hasked ha
    let connected : Hub := { t.hub with connection := some c }
    let told := connected.send (.ofInit unique c.initOut c.minor)
    have hopened : (told.enter .running).journal.count (.entered .running) = 1 :=
      (openings_enter told .running).trans (congrArg (· + 1) ((hsaid (h := connected) _).trans hn))
    have hgreeted : (told.enter .running).greetings = t.hub.greetings :=
      (greetings_enter told .running).trans (greetings_send connected _)
    exact ⟨(congrArg List.length hgreeted).trans_le hg, Nat.le_of_eq hopened,
      fun hcreated => by cases hcreated⟩

theorem lasting_once (srv : Server σ) : Lasting srv Once where
  talks o w := o.writes w (fun d hd => by cases d <;> first | rfl | cases hd) rfl
  serves o _ w := o.writes w (fun d hd => by cases d <;> first | rfl | cases hd) rfl
  greets {s} o hcreated unique init := once_handshake srv o hcreated unique init
  dismisses {h} o := by
    have w : Writes (fun d => d == .dismissed) h (h.record .dismissed) := writes_record h rfl
    exact o.writes w (fun d hd => by cases d <;> first | rfl | cases hd) rfl
  ends {h} o state hstate := by
    have hg := greetings_enter h state
    have hc : (h.enter state).journal.count (.entered .running) =
        h.journal.count (.entered .running) := by
      rw [openings_enter]
      rcases hstate with rfl | rfl <;> rfl
    refine ⟨hg ▸ o.greetings, hc ▸ o.openings, ?_⟩
    intro hs
    replace hs : state = .created := hs
    rcases hstate with rfl | rfl <;> cases hs

theorem once_start (user : σ) : Once (start user).hub :=
  ⟨Nat.zero_le _, Nat.zero_le _, fun _ => ⟨rfl, rfl⟩⟩

end Session

end Fuse
