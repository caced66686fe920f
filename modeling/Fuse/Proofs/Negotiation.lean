-- How the parameters of a connection are settled. When the file system agrees to a
-- proposal, the session runs just when everything that is wanted is offered. Then the
-- connection keeps to the proposal, the kernel is told all of it, and it stays as it
-- is; else the kernel is told that it failed, and there never is a connection.
import Fuse.Proofs.Lifecycle
import Fuse.Proofs.Replies

namespace Fuse.Session

open Hub

variable {σ : Type} {srv : Server σ}

/-! ## The connection stays -/

theorem connection_windDown (srv : Server σ) (s : Session σ) (ending : Ending) :
    (s.windDown srv ending).hub.connection = s.hub.connection := by
  obtain ⟨t, ht, c⟩ := parting srv s
  have hdismissed : (s.dismissed srv).hub.connection = s.hub.connection :=
    c.steady.1.connection.trans ht.connection
  have hclose := steady_closePending srv.drain (s.dismissed srv).hub
  rcases ending with e | exit
  · exact hclose.connection.trans hdismissed
  · cases exit with
    | destroy unique =>
      have hlast := hclose.trans (steady_send _ (.success unique))
      exact hlast.connection.trans hdismissed
    | unmounted => exact hclose.connection.trans hdismissed
    | shutdown => exact hclose.connection.trans hdismissed

theorem connection_finish (srv : Server σ) (s : Session σ) (ending : Ending) :
    (s.finish srv ending).hub.connection = s.hub.connection :=
  (course_comeToRest srv (s.windDown srv ending)).steady.1.connection.trans
    (connection_windDown srv s ending)

theorem connection_comeToRest (srv : Server σ) (s : Session σ) :
    (s.comeToRest srv).hub.connection = s.hub.connection :=
  (course_comeToRest srv s).steady.1.connection

theorem ended_finish (srv : Server σ) (s : Session σ) (ending : Ending) :
    ((s.finish srv ending).comeToRest srv).ended = true := by
  rw [ended, (course_comeToRest srv _).steady.2]
  rfl

theorem connection_run_of_ended {s : Session σ} (he : s.ended = true) (inputs : List Input) :
    (s.run srv inputs).hub.connection = s.hub.connection := by
  induction inputs generalizing s with
  | nil => rfl
  | cons input inputs ih =>
    have hstep : (s.step srv input).1 = (s.outside srv input).1.comeToRest srv :=
      step_of_ended he input
    have hended : (s.step srv input).1.ended = true := by
      rw [hstep, ended, (course_comeToRest srv _).steady.2, result_outside]
      exact he
    have hout : (s.outside srv input).1.hub.connection = s.hub.connection := by
      cases input with
      | answer place a => exact (steady_answerKept srv s place a).connection
      | _ => rfl
    refine (ih hended).trans ?_
    rw [hstep, connection_comeToRest, hout]

/-- A frame leaves the connection alone once there is one. -/
theorem connection_handleFrame {s t : Session σ} {frame : Bytes} {ending : Option Ending}
    (o : s.hub.Open) {c : Connection} (hc : s.hub.connection = some c)
    (hf : s.handleFrame srv frame = (t, ending)) : t.hub.connection = some c := by
  have h := steady_or_handshake srv s frame
  rw [hf] at h
  rcases h with ⟨hs, -⟩ | ⟨hcreated, -⟩
  · exact hs.connection.trans hc
  · have hrun : s.hub.state = .running := by
      rw [o.running, hc]
      rfl
    rw [hcreated] at hrun
    cases hrun

theorem Course.connection {s s' : Session σ} {xs : List (Receipt σ)} (d : Course srv s xs s')
    (o : s.hub.Open) {c : Connection} (hc : s.hub.connection = some c) :
    s'.hub.connection = some c := by
  induction d with
  | refl => exact hc
  | frame d' hf ih => exact connection_handleFrame (d'.open o) ih hf
  | answer _ place a ih => exact (steady_answerKept srv _ place a).connection.trans ih
  | task _ handle ih => exact (steady_runTask srv _ handle).connection.trans ih
  | quiet _ ha ih => exact ha.hub.connection.trans ih

theorem Ends.connection {s s' : Session σ} {xs : List (Receipt σ)} {ending : Ending}
    (e : Ends srv s xs s' ending) (o : s.hub.Open) {c : Connection}
    (hc : s.hub.connection = some c) : s'.hub.connection = some c := by
  cases e with
  | outside d _ => exact d.connection o hc
  | frame d hf => exact connection_handleFrame (d.open o) (d.connection o hc) hf

/-- Once there is a connection, it stays as it is. -/
theorem connection_run {s : Session σ} (hr : s.result = none) (o : s.hub.Open) {c : Connection}
    (hc : s.hub.connection = some c) (inputs : List Input) :
    (s.run srv inputs).hub.connection = some c := by
  induction inputs generalizing s with
  | nil => exact hc
  | cons input inputs ih =>
    have h := stepped srv hr o input
    show ((s.step srv input).1.run srv inputs).hub.connection = some c
    generalize (s.step srv input).1 = s' at h
    cases h with
    | @onward t hs d =>
      have hrest := d.transIdle (course_comeToRest srv t)
      exact ih ((hrest.onward o.queueOpen).2.trans hr) (hrest.open o) (hrest.connection o hc)
    | @ended t ending hs e =>
      rw [connection_run_of_ended (ended_finish srv t ending), connection_comeToRest,
        connection_finish]
      exact e.connection o hc

/-- After a handshake that failed there never was a connection. -/
theorem connection_of_failure {user : σ} {inputs : List Input} {x : Receipt σ}
    {e : SessionError} (hx : x ∈ (start user).receipts srv inputs)
    (hf : x.failure? srv = some e) {before : List Input} (hb : before <+: inputs) :
    ((start user).run srv before).hub.connection = none := by
  obtain ⟨xs, c⟩ := course_receipt hx
  obtain ⟨t, unique, hframe, -, hn, -, -, -⟩ := handleFrame_of_failure c hf
  obtain ⟨after, hrun⟩ := run_of_ending hx hframe
  have hfinal : ((start user).run srv inputs).hub.connection = none := by
    rw [hrun, connection_run_of_ended (ended_finish srv t _), connection_comeToRest,
      connection_finish, hn]
  obtain ⟨rest, rfl⟩ := hb
  rw [run_append] at hfinal
  cases hc : ((start user).run srv before).hub.connection with
  | none => rfl
  | some c =>
    have hstays : (((start user).run srv before).run srv rest).hub.connection = some c := by
      rcases (sound_run srv (Or.inl ⟨rfl, open_start user⟩) before).1 with ⟨hr, o⟩ | ho
      · exact connection_run hr o hc rest
      · exact (connection_run_of_ended ho.result rest).trans hc
    rw [hfinal] at hstays
    cases hstays

/-! ## The outcome of a handshake -/

/-- What the file system set cannot be had, and nothing comes of the session: the
kernel is told that the handshake failed, the result names the capabilities that were
not offered, there never was a connection, and the file system is not told about the
end. -/
structure Declined (srv : Server σ) (user : σ) (inputs : List Input) (x : Receipt σ)
    (config : Config) : Prop where
  answer : ∃ unique, x.unique? = some unique ∧
    ((start user).run srv inputs).hub.queue = x.session.hub.queue ++ [.ofErrno unique .eproto]
  result : ∃ missing, ((start user).run srv inputs).result = some (.error (.capability missing)) ∧
    ∀ bit, missing.has bit = true ↔ config.want.has bit = true ∧ config.capable.has bit = false
  connection : ∀ before, before <+: inputs → ((start user).run srv before).hub.connection = none
  dismissed : .dismissed ∉ ((start user).run srv inputs).hub.journal

/-- The session runs on a connection that keeps to the proposal. The kernel is told
what the connection is, in as many bytes as it can read, and the connection stays. -/
structure Agreed (srv : Server σ) (user : σ) (inputs : List Input) (x : Receipt σ)
    (init : Kernel.InitIn) (config : Config) (c : Connection) : Prop where
  keeps : c.Keeps init config
  connection : (x.session.handleFrame srv x.frame).1.hub.connection = some c
  answer : ∃ (f : Frame) (out : Kernel.InitOut),
    (x.session.handleFrame srv x.frame).1.hub.queue = x.session.hub.queue ++ [f] ∧
    x.unique? = some f.unique ∧ f.error = 0 ∧ out.Tells c ∧
    f.payload = (Wire.encode out).take (initOutSize c.minor)
  stays : ((start user).run srv inputs).hub.connection = some c

variable {user : σ} {inputs : List Input} {x : Receipt σ} {init : Kernel.InitIn}
  {config : Config}

theorem refusal?_of_opinion (hv : init.major = protocolMajor)
    (ho : srv.opinion user init = .ok config) :
    srv.refusal? user init = if config.capable.contains config.want then none
      else some (.capability (config.want.diff config.capable)) := by
  unfold Server.refusal?
  simp [hv, ho]

/-- What is wanted is not offered: nothing comes of the session. -/
theorem declined (hx : x ∈ (start user).receipts srv inputs) (hp : x.proposal? = some init)
    (hv : init.major = protocolMajor) (ho : srv.opinion x.session.user init = .ok config)
    (hwant : config.capable.contains config.want = false) :
    (x.session.handleFrame srv x.frame).1.hub.state ≠ .running ∧
      Declined srv user inputs x config := by
  have hrefusal := refusal?_of_opinion hv ho
  rw [hwant, if_neg Bool.false_ne_true] at hrefusal
  have hf : x.failure? srv = some (.capability (config.want.diff config.capable)) := by
    unfold Receipt.failure?
    rw [hp]
    exact hrefusal
  obtain ⟨hanswer, hresult, hdismissed⟩ := run_of_failure hx hf
  obtain ⟨xs, d⟩ := course_receipt hx
  obtain ⟨t, unique, hframe, -, hn, -, -, -⟩ := handleFrame_of_failure d hf
  have hopen : t.hub.Open := by
    have h := open_handleFrame srv (d.open (open_start user)) x.frame
    rwa [hframe] at h
  refine ⟨?_, hanswer, ⟨_, hresult, ?_⟩, ?_, ?_⟩
  · rw [hframe, ne_eq, hopen.running, hn]
    simp
  · intro bit
    rw [Capabilities.has_diff]
    simp
  · exact fun before hb => connection_of_failure hx hf hb
  · exact List.count_eq_zero.mp hdismissed

/-- All that is wanted is offered: the session runs. -/
theorem agreed (hx : x ∈ (start user).receipts srv inputs) (hp : x.proposal? = some init)
    (hv : init.major = protocolMajor) (ho : srv.opinion x.session.user init = .ok config)
    (hwant : config.capable.contains config.want = true) :
    (x.session.handleFrame srv x.frame).1.hub.state = .running ∧
      ∃ c, Agreed srv user inputs x init config c := by
  obtain ⟨hcreated, unique, hu, hframe⟩ := read_of_proposal? srv hp
  obtain ⟨xs, d⟩ := course_receipt hx
  have o := d.open (open_start user)
  have hrefusal := refusal?_of_opinion hv ho
  rw [hwant, if_pos rfl] at hrefusal
  have herror := (handshake_error srv x.session unique init).trans hrefusal
  have h := handshaken srv x.session unique init
  rw [herror] at h hframe
  rw [hframe]
  obtain ⟨rest, hrun⟩ := run_of_onward hx hframe
  generalize (x.session.handshake srv unique init).1 = s' at h hframe hrun
  cases h with
  | tooNew _ hnew =>
    rw [hv] at hnew
    exact absurd hnew (by decide)
  | @agreed t config' c ha _ _ ho' hc =>
    rw [ho] at ho'
    cases ho'
    obtain ⟨hminor, hcapable⟩ := opinion_offer ho
    let f := Frame.ofInit unique c.initOut c.minor
    let connected : Hub := { t.hub with connection := some c }
    have hopen : connected.queueOpen = true := ha.alike.hub.queueOpen.trans o.queueOpen
    have hqueue : connected.queue = x.session.hub.queue :=
      ha.alike.hub.queue.trans (alike_enter x.session.hub .initializing).queue
    have hsent : (connected.send f).connection = some c := (steady_send connected f).connection
    have hentered := alike_enter (connected.send f) .running
    refine ⟨rfl, c, keeps_of_finish hminor hcapable hc, ?_, ⟨f, c.initOut, ?_⟩, ?_⟩
    · rw [hframe]
      exact hsent
    · refine ⟨?_, hu, rfl, tells_initOut c, payload_ofInit unique c⟩
      rw [hframe, ← hqueue]
      exact hentered.queue.trans (send_queue connected f hopen)
    · have honward := onward_handleFrame srv o.queueOpen x.frame
      have hopen' := open_handleFrame srv o x.frame
      rw [hframe] at honward hopen'
      rw [hrun]
      exact connection_run (honward.2.trans (result_receipt hx)) hopen' hsent rest

/-! ## The law -/

/-- A file system agrees to a proposal, with any settings. The kernel's offer is what
its flags and the protocol have in common, and the session runs just when all that is
wanted is offered. Then there is a connection, of which the kernel is told, that keeps
to the proposal and never changes. If not, the kernel is told that the handshake
failed, the run fails and names what was not offered, and there never is a connection
or a farewell. -/
theorem the_session_runs_when_all_is_offered (srv : Server σ) (user : σ) (inputs : List Input)
    (x : Receipt σ) (init : Kernel.InitIn) (config : Config)
    (hx : x ∈ (start user).receipts srv inputs) (hp : x.proposal? = some init)
    (hv : init.major = protocolMajor) (ho : srv.opinion x.session.user init = .ok config) :
    (∀ bit, config.capable.has bit = true ↔ init.flags.toNat.testBit bit = true ∧ bit < 27) ∧
    ((x.session.handleFrame srv x.frame).1.hub.state = .running ↔
      ∀ bit, config.want.has bit = true → config.capable.has bit = true) ∧
    ((x.session.handleFrame srv x.frame).1.hub.state = .running →
      ∃ c, Agreed srv user inputs x init config c) ∧
    ((x.session.handleFrame srv x.frame).1.hub.state ≠ .running →
      Declined srv user inputs x config) := by
  obtain ⟨-, hcapable⟩ := opinion_offer ho
  refine ⟨?_, ?_⟩
  · intro bit
    rw [hcapable]
    exact Capabilities.has_ofWord init.flags bit
  · rw [← Capabilities.contains_iff]
    cases hwant : config.capable.contains config.want with
    | true =>
      obtain ⟨hrun, hagreed⟩ := agreed hx hp hv ho hwant
      exact ⟨⟨fun _ => rfl, fun _ => hrun⟩, fun _ => hagreed, fun hne => absurd hrun hne⟩
    | false =>
      obtain ⟨hrun, hdeclined⟩ := declined hx hp hv ho hwant
      refine ⟨⟨fun h => absurd h hrun, fun h => ?_⟩, fun h => absurd h hrun, fun _ => hdeclined⟩
      cases h

/-- Writes of five thousand bytes, told in pages, and more congestion than there is
background. -/
def pages : List Config.Setting :=
  [.want .maxPages, .maxWrite 5000, .maxBackground 8, .congestionThreshold 99]

/-- A file system that agrees to every proposal with these settings. -/
def pager : Server Unit where
  table :=
    { handler := fun _ => none
      onInit := some fun user _ _ => { user, settings := pages } }

/-- A proposal of a newer kernel that offers these capabilities. -/
def offer (flags : UInt32) : Kernel.InitIn :=
  { major := 7, minor := 40, maxReadahead := 4096, flags }

/-- The proposal comes to a new session. -/
def offered (flags : UInt32) : Receipt Unit :=
  ⟨start (), aboutRoot .init 1 (Wire.encode (offer flags))⟩

/-- A kernel that offers to count pages is told of two, and one that does not is told
that the handshake failed. -/
theorem pages_are_counted_if_offered :
    (∃ c, Agreed pager () [.frames [(offered 0x400000).frame]] (offered 0x400000)
        (offer 0x400000) ((Config.ofInit (offer 0x400000) 31).applyAll pages) c ∧
      c.minor = 31 ∧ c.maxPages = 2 ∧ c.congestionThreshold = 8) ∧
    Declined pager () [.frames [(offered 0x20).frame]] (offered 0x20)
      ((Config.ofInit (offer 0x20) 31).applyAll pages) := by
  have hx (flags : UInt32) :
      offered flags ∈ (start ()).receipts pager [.frames [(offered flags).frame]] := by
    simp [receipts, received, ended, receiptsOf, start, offered]
  have hgood := the_session_runs_when_all_is_offered pager () _ (offered 0x400000)
    (offer 0x400000) _ (hx _) (by decide +kernel) rfl rfl
  have hbad := the_session_runs_when_all_is_offered pager () _ (offered 0x20) (offer 0x20) _
    (hx _) (by decide +kernel) rfl rfl
  obtain ⟨-, -, hagreed, -⟩ := hgood
  obtain ⟨-, -, -, hdeclined⟩ := hbad
  refine ⟨?_, hdeclined (by decide +kernel)⟩
  obtain ⟨c, ha⟩ := hagreed (by decide +kernel)
  have hvalues : ((start ()).run pager [.frames [(offered 0x400000).frame]]).hub.connection.map
      (fun c => (c.minor, c.maxPages, c.congestionThreshold)) = some (31, 2, 8) := by
    decide +kernel
  rw [ha.stays] at hvalues
  exact ⟨c, ha, by simpa using hvalues⟩

end Fuse.Session
