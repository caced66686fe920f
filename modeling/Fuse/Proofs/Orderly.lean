-- The order of deeds. Each deed in the journal of a run is one that the session may do
-- at that point: the state goes from step to step, operations are handed on while the
-- session runs, and after the end began nothing is.
import Mathlib.Data.List.Chain
import Mathlib.Data.List.Induction
import Fuse.Proofs.Moments
import Fuse.Session.Lifecycle

namespace Fuse

variable {σ : Type} {srv : Server σ}

/-! ## The order of deeds -/

namespace State

theorem after_concat (ds : List Deed) (d : Deed) :
    after (ds ++ [d]) = d.state?.getD (after ds) := by
  unfold after
  cases h : d.state? <;> simp [h]

theorem after_append {ds es : List Deed} (h : ∀ d ∈ es, d.state? = none) :
    after (ds ++ es) = after ds := by
  have hnone : es.filterMap Deed.state? = [] := by
    rw [List.filterMap_eq_nil_iff]
    exact h
  unfold after
  rw [List.filterMap_append, hnone, List.append_nil]

end State

theorem Lawful.more {xs : List (Receipt σ)} {ds : List Deed} {d : Deed} (h : Lawful xs ds d)
    (ys : List (Receipt σ)) : Lawful (xs ++ ys) ds d := by
  cases d with
  | entered state =>
    refine ⟨h.1, ?_⟩
    have hstate := h.2
    cases state with
    | created =>
      obtain ⟨x, hx, hrest⟩ := hstate
      exact ⟨x, List.mem_append_left _ hx, hrest⟩
    | running =>
      obtain ⟨x, hx, hrest⟩ := hstate
      exact ⟨x, List.mem_append_left _ hx, hrest⟩
    | _ => trivial
  | _ => exact h

namespace Orderly

variable {xs : List (Receipt σ)} {ds es : List Deed}

theorem nil : Orderly xs [] := by
  intro before d after h
  simp at h

theorem more (o : Orderly xs ds) (ys : List (Receipt σ)) : Orderly (xs ++ ys) ds :=
  fun before d after h => (o before d after h).more ys

theorem of_append (o : Orderly xs (ds ++ es)) : Orderly xs ds := by
  intro before d after h
  apply o before d (after ++ es)
  simp [h]

/-- One more deed may be done if it is lawful. -/
theorem concat {d : Deed} (o : Orderly xs ds) (h : Lawful xs ds d) : Orderly xs (ds ++ [d]) := by
  intro before e after he
  rcases List.eq_nil_or_concat after with rfl | ⟨rest, last, rfl⟩
  · obtain ⟨rfl, hde⟩ := List.append_inj' he rfl
    obtain ⟨rfl, -⟩ := List.cons_eq_cons.mp hde
    exact h
  · have he' : ds ++ [d] = (before ++ e :: rest) ++ [last] := by simpa using he
    obtain ⟨hds, -⟩ := List.append_inj' he' rfl
    exact o before e rest hds

/-- Deeds that enter no state may be done if the state allows each of them. -/
theorem append (o : Orderly xs ds) (hs : ∀ d ∈ es, d.state? = none)
    (hl : ∀ d ∈ es, ∀ before, State.after before = State.after ds → Lawful xs before d) :
    Orderly xs (ds ++ es) := by
  induction es generalizing ds with
  | nil => simpa using o
  | cons d es ih =>
    have hd := hs d List.mem_cons_self
    have hafter : State.after (ds ++ [d]) = State.after ds := by
      rw [State.after_concat, hd, Option.getD_none]
    have ho := o.concat (hl d List.mem_cons_self ds rfl)
    have hrest : Orderly xs ((ds ++ [d]) ++ es) := by
      apply ih ho
      · exact fun e he => hs e (List.mem_cons_of_mem _ he)
      · intro e he before hb
        exact hl e (List.mem_cons_of_mem _ he) before (hb.trans hafter)
    simpa using hrest

/-- The states follow each other in steps. -/
theorem isChain (o : Orderly xs ds) :
    (State.created :: ds.filterMap Deed.state?).IsChain State.Step := by
  induction ds using List.reverseRecOn with
  | nil => exact .singleton _
  | append_singleton ds d ih =>
    have hd := o ds d [] rfl
    have hds := ih o.of_append
    cases d with
    | entered state =>
      have hlast : (State.created :: ds.filterMap Deed.state?).getLast? =
          some (State.after ds) := by
        unfold State.after
        rw [List.getLast?_cons]
      have hconcat : State.created :: (ds ++ [Deed.entered state]).filterMap Deed.state? =
          (State.created :: ds.filterMap Deed.state?) ++ [state] := by
        simp [Deed.state?]
      rw [hconcat, List.isChain_append]
      refine ⟨hds, .singleton _, ?_⟩
      intro s hs t ht
      rw [hlast] at hs
      cases hs
      cases ht
      exact hd.1
    | _ =>
      rw [List.filterMap_append, List.filterMap_cons_none rfl]
      simpa using hds

/-- After the end began there is no way back. -/
theorem after_ending {before : List Deed} (after : List Deed)
    (o : Orderly xs (before ++ .entered .destroying :: after)) :
    State.after (before ++ .entered .destroying :: after) = .destroying ∨
      State.after (before ++ .entered .destroying :: after) = .terminated := by
  induction after using List.reverseRecOn with
  | nil =>
    rw [State.after_concat]
    exact Or.inl rfl
  | append_singleton after d ih =>
    rw [← List.cons_append, ← List.append_assoc] at o ⊢
    have hd := o _ d [] rfl
    have hbefore := ih o.of_append
    rw [State.after_concat]
    cases d with
    | entered state =>
      have hstep := hd.1
      rcases hbefore with h | h
      · rw [h] at hstep
        cases hstep with
        | ending h => simp at h
        | ended => exact Or.inr rfl
      · rw [h] at hstep
        cases hstep with
        | ending h => simp at h
    | _ => exact hbefore

/-- No operation is handed on after the end began. -/
theorem no_call_after_ending {before after : List Deed}
    (o : Orderly xs (before ++ .entered .destroying :: after)) (r : Request) (op : Operation) :
    .called r op ∉ after := by
  intro hc
  obtain ⟨mid, rest, rfl⟩ := List.append_of_mem hc
  rw [← List.cons_append, ← List.append_assoc] at o
  have hrun : State.after (before ++ .entered .destroying :: mid) = .running := o _ _ rest rfl
  rcases after_ending mid o.of_append with h | h
  · rw [h] at hrun
    cases hrun
  · rw [h] at hrun
    cases hrun

end Orderly

/-! ## The session on record -/

/-- The journal is orderly, and says in which state the session is. -/
structure Hub.OnRecord (xs : List (Receipt σ)) (h : Hub) : Prop where
  orderly : Orderly xs h.journal
  state : State.after h.journal = h.state

namespace Hub.OnRecord

variable {xs : List (Receipt σ)} {h h' : Hub}

theorem more (r : h.OnRecord xs) (ys : List (Receipt σ)) : h.OnRecord (xs ++ ys) :=
  ⟨r.orderly.more ys, r.state⟩

/-- Deeds of one sort keep the record if the state allows them. -/
theorem writes {P : Deed → Bool} (r : h.OnRecord xs) (w : Writes P h h')
    (hs : ∀ d, P d = true → d.state? = none)
    (hl : ∀ d, P d = true → ∀ before, State.after before = h.state → Lawful xs before d) :
    h'.OnRecord xs := by
  obtain ⟨ds, hds, hp⟩ := w.journal
  have hstate : ∀ d ∈ ds, d.state? = none := fun d hd => hs d (hp d hd)
  refine ⟨?_, ?_⟩
  · rw [hds]
    apply r.orderly.append hstate
    intro d hd before hb
    exact hl d (hp d hd) before (hb.trans r.state)
  · rw [hds, State.after_append hstate, w.state, r.state]

/-- Frames and lines of the log are allowed in every state. -/
theorem talks (r : h.OnRecord xs) (t : Talks h h') : h'.OnRecord xs := by
  apply r.writes t
  · intro d hd
    cases d <;> first | rfl | cases hd
  · intro d hd before _
    cases d with
    | sent => trivial
    | noted => trivial
    | _ => cases hd

/-- Operations are allowed in the running state. -/
theorem serves (r : h.OnRecord xs) (hr : h.state = .running) (w : Writes Deed.isService h h') :
    h'.OnRecord xs := by
  apply r.writes w
  · intro d hd
    cases d <;> first | rfl | cases hd
  · intro d hd before hb
    cases d with
    | called => exact hb.trans hr
    | sent => trivial
    | noted => trivial
    | _ => cases hd

/-- The file system is asked while the session opens. -/
theorem asks (r : h.OnRecord xs) (hr : h.state = .initializing) (w : Writes Deed.isTalk h h') :
    h'.OnRecord xs := by
  apply r.writes w
  · intro d hd
    cases d <;> first | rfl | cases hd
  · intro d hd before hb
    cases d with
    | greeted => exact hb.trans hr
    | noted => trivial
    | _ => cases hd

theorem enter (r : h.OnRecord xs) {state : State} (hl : Lawful xs h.journal (.entered state)) :
    (h.enter state).OnRecord xs :=
  ⟨r.orderly.concat hl, State.after_concat _ _⟩

end Hub.OnRecord

namespace Session

open Hub

/-! ## Frames -/

theorem send_journal {h : Hub} (ho : h.queueOpen = true) (f : Frame) :
    (h.send f).journal = h.journal ++ [.sent f] := by
  unfold send wake
  rw [if_pos ho]
  split <;> rfl

/-- A handshake goes from step to step. -/
theorem onRecord_handshake (srv : Server σ) {xs : List (Receipt σ)} {x : Receipt σ}
    {unique : UInt64} {init : Kernel.InitIn} (r : x.session.hub.OnRecord xs)
    (ho : x.session.hub.queueOpen = true) (hc : x.session.hub.state = .created) (hx : x ∈ xs)
    (hp : x.proposal? = some init) (hu : x.unique? = some unique) :
    (x.session.handshake srv unique init).1.hub.OnRecord xs := by
  have hopening : Lawful xs x.session.hub.journal (.entered .initializing) := by
    refine ⟨?_, trivial⟩
    rw [r.state, hc]
    exact .opening
  have rinit : (x.session.enter .initializing).hub.OnRecord xs := r.enter hopening
  have h := handshaken srv x.session unique init
  generalize (x.session.handshake srv unique init).1 = s' at h
  generalize (x.session.handshake srv unique init).2 = failed at h
  cases h with
  | @failed t e ha hf => exact (rinit.asks rfl ha.writes).talks (talks_send _ _)
  | @tooNew f hf hv =>
    have rsent := rinit.talks (talks_send _ f)
    apply rsent.enter
    refine ⟨?_, x, hx, init, f, hp, hv, ?_⟩
    · rw [rsent.state, (talks_send _ f).state]
      exact .tryingAgain
    · have hopen : (x.session.enter .initializing).hub.queueOpen = true := ho
      have hjournal : (x.session.enter .initializing).hub.journal =
          x.session.hub.journal ++ [.entered .initializing] := rfl
      rw [send_journal hopen, hjournal]
      simp
  | @agreed t config connection ha hf hv hopinion hfinish =>
    obtain ⟨between, hbetween, -⟩ := ha.writes.journal
    let connected : Hub := { t.hub with connection := some connection }
    let f := Frame.ofInit unique connection.initOut connection.minor
    have rasked := rinit.asks rfl ha.writes
    have rconnected : connected.OnRecord xs := ⟨rasked.orderly, rasked.state⟩
    have rsent := rconnected.talks (talks_send connected f)
    have hopen : connected.queueOpen = true := ha.alike.hub.queueOpen.trans ho
    have hstate : connected.state = .initializing := ha.writes.state
    apply rsent.enter
    refine ⟨?_, x, hx, init, unique, hp, hv, hu, connection, between, ?_⟩
    · rw [rsent.state, (talks_send _ f).state, hstate]
      exact .opened
    · have hjournal : connected.journal =
          x.session.hub.journal ++ [.entered .initializing] ++ between := hbetween
      rw [send_journal hopen, hjournal]
      simp [f]

/-- What a session does with a frame is lawful. -/
theorem onRecord_handleFrame (srv : Server σ) {xs : List (Receipt σ)} (x : Receipt σ)
    (r : x.session.hub.OnRecord xs) (ho : x.session.hub.queueOpen = true) :
    (x.session.handleFrame srv x.frame).1.hub.OnRecord (xs ++ [x]) := by
  have rx := r.more [x]
  have h := written srv x
  generalize (x.session.handleFrame srv x.frame).1 = t at h
  cases h with
  | talks w => exact rx.talks w
  | serves hr w => exact rx.serves hr w
  | greets hc hu hp => exact onRecord_handshake srv rx ho hc (by simp) hp hu

theorem onRecord_receive (srv : Server σ) {xs : List (Receipt σ)} {s : Session σ}
    (r : s.hub.OnRecord xs) (ho : s.hub.queueOpen = true) (frames : List Bytes) :
    (s.receive srv frames).1.hub.OnRecord (xs ++ s.receiptsOf srv frames) := by
  induction frames generalizing xs s with
  | nil => simpa [receiptsOf, receive] using r
  | cons frame frames ih =>
    rw [receive_cons, receiptsOf_cons]
    have rframe := onRecord_handleFrame srv ⟨s, frame⟩ r ho
    have honward := (onward_handleFrame srv ho frame).1
    cases h : s.handleFrame srv frame with
    | mk t ending =>
      simp only [h] at rframe honward
      cases ending with
      | some ending => exact rframe
      | none =>
        have hrest := ih rframe (honward.queueOpen.trans ho)
        simpa using hrest

/-! ## The end -/

theorem onRecord_farewell (srv : Server σ) {xs : List (Receipt σ)} {s : Session σ}
    (r : s.hub.OnRecord xs) (hs : s.hub.state = .destroying) :
    (s.farewell srv).hub.OnRecord xs ∧ (s.farewell srv).hub.state = .destroying := by
  unfold farewell
  split
  · rename_i handler _ _
    let answers := (handler s.user s.hub.state).answers
    have hdismissed : Lawful xs s.hub.journal .dismissed := r.state.trans hs
    have rdismissed : (s.record .dismissed).hub.OnRecord xs :=
      ⟨r.orderly.concat hdismissed, (State.after_concat _ _).trans r.state⟩
    have htalks := talks_answerAllKept srv (s.record .dismissed) answers
    have ranswered := rdismissed.talks htalks
    have hstate := htalks.state.trans hs
    dsimp only
    split
    · exact ⟨ranswered.talks (talks_note _ _), hstate⟩
    · exact ⟨ranswered, hstate⟩
  · exact ⟨r, hs⟩

/-- A session that is under way may come to its end. -/
theorem onRecord_windDown (srv : Server σ) {xs : List (Receipt σ)} {s : Session σ}
    (r : s.hub.OnRecord xs) (hu : State.UnderWay s.hub.state) (ending : Ending) :
    (s.windDown srv ending).hub.OnRecord xs ∧
      (s.windDown srv ending).hub.state = .destroying := by
  have hlawful : Lawful xs s.hub.journal (.entered .destroying) := by
    refine ⟨?_, trivial⟩
    rw [r.state]
    exact .ending hu
  obtain ⟨rfarewell, hstate⟩ := onRecord_farewell srv (s := s.enter .destroying)
    (r.enter hlawful) rfl
  have hclose := talks_closePending srv.drain ((s.enter .destroying).farewell srv).hub
  have hlast : Talks ((s.enter .destroying).farewell srv).hub (s.windDown srv ending).hub := by
    have hclosed {h h' : Hub} (t : Talks h h') : Talks h { h' with queueOpen := false } :=
      ⟨t.state, t.journal⟩
    rcases ending with e | exit
    · exact hclosed hclose
    · cases exit with
      | destroy unique => exact hclosed (hclose.trans (talks_send _ (.success unique)))
      | unmounted => exact hclosed hclose
      | shutdown => exact hclosed hclose
  exact ⟨rfarewell.talks hlast, hlast.state.trans hstate⟩

theorem onRecord_finish (srv : Server σ) {xs : List (Receipt σ)} {s : Session σ}
    (r : s.hub.OnRecord xs) (hu : State.UnderWay s.hub.state) (ending : Ending) :
    (s.finish srv ending).hub.OnRecord xs := by
  obtain ⟨rdown, hstate⟩ := onRecord_windDown srv r hu ending
  have hrest := talks_comeToRest srv (s.windDown srv ending)
  have rrest := rdown.talks hrest
  have hlawful : Lawful xs ((s.windDown srv ending).comeToRest srv).hub.journal
      (.entered .terminated) := by
    refine ⟨?_, trivial⟩
    rw [rrest.state, hrest.state, hstate]
    exact .ended
  have rend := rrest.enter hlawful
  exact ⟨rend.orderly, rend.state⟩

/-! ## Runs -/

/-- The journal is on record, and a session without a result is under way. -/
structure Recorded (xs : List (Receipt σ)) (s : Session σ) : Prop where
  onRecord : s.hub.OnRecord xs
  «open» : s.result = none → s.hub.Open
  underWay : s.result = none → State.UnderWay s.hub.state

theorem recorded_start (user : σ) : Recorded [] (start user) :=
  ⟨⟨.nil, rfl⟩, fun _ => open_start user, fun _ => Or.inl rfl⟩

theorem onRecord_serve (srv : Server σ) {xs : List (Receipt σ)} {s : Session σ}
    (r : s.hub.OnRecord xs) (hr : s.result = none) (ho : s.hub.queueOpen = true)
    (input : Input) : (s.serve srv input).1.hub.OnRecord (xs ++ s.received srv input) := by
  have hidle : s.hub.OnRecord (xs ++ []) := by rwa [List.append_nil]
  cases input with
  | frames frames =>
    have hreceived : s.received srv (.frames frames) = s.receiptsOf srv frames := by
      simp [received, ended, hr]
    rw [hreceived]
    exact onRecord_receive srv r ho frames
  | _ => exact hidle

/-- One input keeps the record. -/
theorem recorded_step (srv : Server σ) {xs : List (Receipt σ)} {s : Session σ}
    (r : Recorded xs s) (input : Input) :
    Recorded (xs ++ s.received srv input) (s.step srv input).1 := by
  have rout := r.onRecord.talks (talks_outside srv s input)
  cases hr : s.result with
  | some result =>
    have hended : s.ended = true := by simp [ended, hr]
    have hstep : (s.step srv input).1.result = some result := by
      rw [step_of_ended hended, (course_comeToRest srv _).steady.2, result_outside, hr]
    refine ⟨?_, ?_, ?_⟩
    · rw [step_of_ended hended]
      exact (rout.more _).talks (talks_comeToRest srv _)
    · intro hnone
      rw [hstep] at hnone
      cases hnone
    · intro hnone
      rw [hstep] at hnone
      cases hnone
  | none =>
    have o := r.open hr
    have hu := r.underWay hr
    have hout := course_outside srv hr o input
    have hr' : (s.outside srv input).1.result = none := hout.steady.2.trans hr
    have rserved := onRecord_serve srv rout hr' (hout.open o).queueOpen input
    rw [received_outside] at rserved
    have h := stepped srv hr o input
    generalize (s.step srv input).1 = s' at h
    cases h with
    | @onward t hs c =>
      rw [hs] at rserved
      have hrest := c.transIdle (course_comeToRest srv t)
      refine ⟨rserved.talks (talks_comeToRest srv t), ?_, ?_⟩
      · exact fun _ => hrest.open o
      · exact fun _ => hrest.underWay o hu
    | @ended t ending hs e =>
      rw [hs] at rserved
      have hfinish := onRecord_finish srv rserved (e.underWay o hu) ending
      have hresult : ((t.finish srv ending).comeToRest srv).result ≠ none := by
        rw [(course_comeToRest srv _).steady.2]
        simp [finish]
      refine ⟨hfinish.talks (talks_comeToRest srv _), ?_, ?_⟩
      · exact fun hnone => absurd hnone hresult
      · exact fun hnone => absurd hnone hresult

theorem recorded_run (srv : Server σ) {xs : List (Receipt σ)} {s : Session σ}
    (r : Recorded xs s) (inputs : List Input) :
    Recorded (xs ++ s.receipts srv inputs) (s.run srv inputs) := by
  induction inputs generalizing xs s with
  | nil => simpa [receipts, run] using r
  | cons input inputs ih =>
    have hrest := ih (recorded_step srv r input)
    rw [List.append_assoc] at hrest
    exact hrest

end Session

end Fuse
