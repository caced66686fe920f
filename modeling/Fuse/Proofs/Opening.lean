-- The handshake takes effect once. However many proposals the kernel sends, and whenever
-- it does, one of them at most opens the connection, and nothing comes of the others but
-- an answer.
import Fuse.Proofs.Lasting
import Fuse.Proofs.Retrying
import Fuse.Proofs.Versions

namespace Fuse.Session

open Hub

variable {σ : Type} {srv : Server σ}

/-! ## The frame that opens the connection -/

/-- The answer to a proposal begins with the version. -/
theorem version?_ofInit (unique : UInt64) (out : Kernel.InitOut) (minor : UInt32) :
    (Frame.ofInit unique out minor).version? = some (out.major, out.minor) := by
  let version := (Layout.seq .u32 [.u32]).encode (out.major, out.minor)
  have hread (rest : Bytes) : ((Layout.seq .u32 [.u32]).decode (version ++ rest)).map (·.1) =
      some (out.major, out.minor) := by
    rw [Layout.decode_encode]
    rfl
  have hlength : version.length = 8 := Layout.length_encode _ _
  obtain ⟨rest, hrest⟩ : ∃ rest, Wire.encode out = version ++ rest :=
    ⟨_, (List.append_assoc _ _ _).symm⟩
  have hfront {n : Nat} (hn : 8 ≤ n) :
      (Wire.encode out).take n = version ++ rest.take (n - 8) := by
    rw [hrest, List.take_append, hlength, List.take_of_length_le (hlength ▸ hn)]
  unfold Frame.version? Frame.ofInit
  dsimp only
  split
  · rw [hfront (by decide)]
    exact hread _
  · split
    · rw [hfront (by decide)]
      exact hread _
    · rw [hrest]
      exact hread _

/-- The frame that opens the connection is told the version. -/
theorem handleFrame_of_opens {x : Receipt σ} {c : Connection}
    (ho : x.session.hub.queueOpen = true) (h : x.Opens srv c) :
    ∃ unique t, x.unique? = some unique ∧ x.session.handleFrame srv x.frame = (t, none) ∧
      t.hub.queue = x.session.hub.queue ++ [.ofInit unique c.initOut c.minor] ∧
      t.hub.connection = some c := by
  have hafter := h.after
  have hsame {g : Hub} (hg : g.connection = x.session.hub.connection)
      (hc : g.connection = some c) : False := by
    rw [hg, h.before] at hc
    cases hc
  have hx : Handled srv x (x.session.handleFrame srv x.frame).1
      (x.session.handleFrame srv x.frame).2 := handled srv x.session x.frame
  generalize x.session.handleFrame srv x.frame = g at hx hafter ⊢
  obtain ⟨t, ending⟩ := g
  -- Only a greeting on which both sides agree connects them.
  cases hx with
  | dropped _ ha => exact (hsame ha.hub.connection hafter).elim
  | refused _ _ _ ha _ =>
    exact (hsame ((steady_send _ _).connection.trans ha.hub.connection) hafter).elim
  | forgotten _ _ _ _ =>
    exact (hsame (steady_dispatchForgets _ _ _).1.connection hafter).elim
  | dispatched _ _ _ _ _ _ => exact (hsame (steady_dispatch srv _ _ _).connection hafter).elim
  | interrupted _ _ _ => exact (hsame (steady_interrupt _ _).connection hafter).elim
  | dismissed _ _ _ _ => exact (hsame rfl hafter).elim
  | @greeted header init hh _ _ _ =>
    have hs := handshaken srv x.session header.unique init
    generalize x.session.handshake srv header.unique init = g at hs hafter ⊢
    obtain ⟨s', failed⟩ := g
    dsimp only at hs hafter ⊢
    cases hs with
    | @failed t e ha _ =>
      exact (hsame ((steady_send t.hub _).connection.trans ha.alike.hub.connection) hafter).elim
    | tooNew _ _ =>
      exact (hsame (steady_send (x.session.enter .initializing).hub _).connection hafter).elim
    | @agreed t _ c' ha _ _ _ _ =>
      let connected : Hub := { t.hub with connection := some c' }
      have hopen : connected.queueOpen = true := ha.alike.hub.queueOpen.trans ho
      have hqueue : connected.queue = x.session.hub.queue :=
        ha.alike.hub.queue.trans (alike_enter x.session.hub .initializing).queue
      have hconn := (steady_send connected (.ofInit header.unique c'.initOut c'.minor)).connection
      obtain rfl : c' = c := Option.some.inj (hconn.symm.trans hafter)
      refine ⟨header.unique, _, unique?_of_header? hh, rfl, ?_, hconn⟩
      rw [← hqueue]
      exact (alike_enter _ .running).queue.trans (send_queue connected _ hopen)

/-- The frame that opened the connection is the only one that did, and its version is the
one that counts. -/
theorem opening {user : σ} {inputs : List Input} {xs ys : List (Receipt σ)} {x : Receipt σ}
    {c : Connection} (hxs : (start user).receipts srv inputs = xs ++ x :: ys)
    (h : x.Opens srv c) : Opening srv user inputs xs x ys c := by
  have d := course_before_receipt hxs
  have o := d.open (open_start user)
  have hx : x ∈ (start user).receipts srv inputs := by simp [hxs]
  obtain ⟨unique, t, hu, hframe, hqueue, hconn⟩ := handleFrame_of_opens o.queueOpen h
  have ot : t.hub.Open := (d.frame hframe).open (open_start user)
  refine ⟨?_, ?_, ?_, ?_⟩
  · intro y hy
    obtain ⟨front, back, rfl⟩ := List.append_of_mem hy
    obtain ⟨dy, hrest⟩ := d.split rfl
    cases hc : y.session.hub.connection with
    | none => rfl
    | some c' =>
      have hlater := hrest.connection (dy.open (open_start user)) hc
      rw [h.before] at hlater
      cases hlater
  · intro y hy
    obtain ⟨front, back, rfl⟩ := List.append_of_mem hy
    have dy : Course srv (start user) (xs ++ x :: front) y.session :=
      course_before_receipt (by simpa using hxs)
    -- The frame `y` came after the moment at which `x` had been served.
    obtain ⟨t', ht', hrest⟩ := (dy.split rfl).2.next
    obtain ⟨rfl, -⟩ := Prod.mk.inj (hframe.symm.trans ht')
    have hy := hrest.connection ot hconn
    refine ⟨hy, ?_⟩
    unfold Receipt.message? Receipt.messageAt
    rw [minor_of_connection hy]
  · obtain ⟨rest, hrun⟩ := run_of_onward hx hframe
    have hr := (onward_handleFrame srv o.queueOpen x.frame).2
    rw [hframe] at hr
    rw [hrun]
    exact connection_run (hr.trans (result_receipt hx)) ot hconn rest
  · obtain ⟨later, hlater, hlays⟩ := says_run hxs hframe hconn
    refine ⟨_, later, ?_, hu, rfl, version?_ofInit unique c.initOut c.minor, hlays⟩
    rw [hlater, hqueue, List.append_assoc]
    rfl

/-! ## No connection without such a frame -/

/-- A frame opens the connection, or there is none after it. -/
theorem opens_or_none (srv : Server σ) {x : Receipt σ} (hn : x.session.hub.connection = none) :
    (∃ c, x.Opens srv c) ∨ (x.session.handleFrame srv x.frame).1.hub.connection = none := by
  cases hc : (x.session.handleFrame srv x.frame).1.hub.connection with
  | none => exact Or.inr rfl
  | some c => exact Or.inl ⟨c, hn, hc⟩

theorem Course.unopened {s s' : Session σ} {xs : List (Receipt σ)} (d : Course srv s xs s')
    (hn : s.hub.connection = none) (hx : ∀ x ∈ xs, ∀ c, ¬x.Opens srv c) :
    s'.hub.connection = none := by
  induction d with
  | refl => exact hn
  | @frame xs s' s'' frame _ h ih =>
    have hs' := ih fun x hm => hx x (List.mem_append_left _ hm)
    rcases opens_or_none srv (x := ⟨s', frame⟩) hs' with ⟨c, hc⟩ | hnone
    · exact absurd hc (hx _ (by simp) c)
    · dsimp only at hnone
      rwa [h] at hnone
  | answer _ place a ih => exact (steady_answerKept srv _ place a).connection.trans (ih hx)
  | task _ handle ih => exact (steady_runTask srv _ handle).connection.trans (ih hx)
  | quiet _ ha ih => exact ha.hub.connection.trans (ih hx)

theorem Ends.unopened {s s' : Session σ} {xs : List (Receipt σ)} {ending : Ending}
    (e : Ends srv s xs s' ending) (hn : s.hub.connection = none)
    (hx : ∀ x ∈ xs, ∀ c, ¬x.Opens srv c) : s'.hub.connection = none := by
  cases e with
  | outside d _ => exact d.unopened hn hx
  | @frame xs s' s'' frame _ d h =>
    have hs' := d.unopened hn fun x hm => hx x (List.mem_append_left _ hm)
    rcases opens_or_none srv (x := ⟨s', frame⟩) hs' with ⟨c, hc⟩ | hnone
    · exact absurd hc (hx _ (by simp) c)
    · dsimp only at hnone
      rwa [h] at hnone

theorem unopened_run {s : Session σ} (hr : s.result = none) (o : s.hub.Open)
    (hn : s.hub.connection = none) {inputs : List Input}
    (hx : ∀ x ∈ s.receipts srv inputs, ∀ c, ¬x.Opens srv c) :
    (s.run srv inputs).hub.connection = none := by
  induction inputs generalizing s with
  | nil => exact hn
  | cons input inputs ih =>
    unfold receipts at hx
    have hx₁ : ∀ x ∈ s.received srv input, ∀ c, ¬x.Opens srv c :=
      fun x hm => hx x (List.mem_append_left _ hm)
    have hx₂ : ∀ x ∈ (s.step srv input).1.receipts srv inputs, ∀ c, ¬x.Opens srv c :=
      fun x hm => hx x (List.mem_append_right _ hm)
    have h := stepped srv hr o input
    show ((s.step srv input).1.run srv inputs).hub.connection = none
    generalize (s.step srv input).1 = s' at h hx₂
    cases h with
    | @onward t hs d =>
      have hrest := d.transIdle (course_comeToRest srv t)
      exact ih ((hrest.onward o.queueOpen).2.trans hr) (hrest.open o) (hrest.unopened hn hx₁) hx₂
    | @ended t ending hs e =>
      rw [connection_run_of_ended (ended_finish srv t ending), connection_comeToRest,
        connection_finish]
      exact e.unopened hn hx₁

/-- There is a connection just when a frame opened it. -/
theorem connection_run_iff (srv : Server σ) (user : σ) (inputs : List Input) (c : Connection) :
    ((start user).run srv inputs).hub.connection = some c ↔
      ∃ xs x ys, (start user).receipts srv inputs = xs ++ x :: ys ∧ x.Opens srv c := by
  constructor
  · intro hc
    by_cases hx : ∀ x ∈ (start user).receipts srv inputs, ∀ c, ¬x.Opens srv c
    · rw [unopened_run (s := start user) rfl (open_start user) rfl hx] at hc
      cases hc
    · push Not at hx
      obtain ⟨x, hm, c', h⟩ := hx
      obtain ⟨xs, ys, hxs⟩ := List.append_of_mem hm
      obtain rfl : c' = c := Option.some.inj ((opening hxs h).stays.symm.trans hc)
      exact ⟨xs, x, ys, hxs, h⟩
  · rintro ⟨xs, x, ys, hxs, h⟩
    exact (opening hxs h).stays

/-- Once there is a connection, it never changes. -/
theorem connection_of_prefix (srv : Server σ) (user : σ) {before inputs : List Input}
    (hb : before <+: inputs) {c : Connection}
    (hc : ((start user).run srv before).hub.connection = some c) :
    ((start user).run srv inputs).hub.connection = some c := by
  obtain ⟨rest, rfl⟩ := hb
  rw [run_append]
  rcases (sound_run srv (Or.inl ⟨rfl, open_start user⟩) before).1 with ⟨hr, o⟩ | ho
  · exact connection_run hr o hc rest
  · exact (connection_run_of_ended ho.result rest).trans hc

/-! ## Proposals on a connection -/

theorem message?_of_isInit {x : Receipt σ} (h : x.IsInit) :
    x.message? = none ∨ ∃ init, x.message? = some (.init init) := by
  obtain ⟨header, hh, hop⟩ := h
  have hcode : Opcode.ofCode? header.opcode = some .init := by
    rw [hop]
    decide
  cases hm : decodeMessage header x.frame x.session.hub.minor with
  | error e => exact Or.inl (message?_of_undecoded hh hm)
  | ok m =>
    rw [message?_of_decoded hh hm]
    simp only [decodeMessage, hcode] at hm
    split at hm
    · cases hm
    cases ht : Opcode.init.takeMessage x.session.hub.minor header.nodeid
        (x.frame.drop inHeaderSize) with
    | error e =>
      rw [ht] at hm
      cases hm
    | ok read =>
      rw [ht] at hm
      cases hm
      obtain ⟨init, left, -, hinit⟩ := Take.bind_eq_ok.mp ht
      cases hinit
      exact Or.inr ⟨init, rfl⟩

/-- A proposal that comes on a connection gets an error. -/
theorem beside_lateInit (srv : Server σ) {x : Receipt σ} (o : x.session.hub.Open)
    (hrun : x.session.hub.state = .running) (h : x.IsInit) :
    (∃ unique, x.unique? = some unique ∧ x.complaint = [.ofErrno unique .eio]) ∧
      (x.session.handleFrame srv x.frame).2 = none ∧
      Beside true x.session.hub.acts (x.session.hub.acts ++ x.complaint.map .sent) x.session
        (x.session.handleFrame srv x.frame).1 := by
  obtain ⟨header, hh, hop⟩ := h
  have hforgets : x.forgets = false := by
    simp only [Receipt.forgets, hh, hop]
    decide
  have hcomplaint : x.complaint = [.ofErrno header.unique .eio] := by
    have hlong := Nat.not_lt.mpr (le_of_header? hh)
    simp [Receipt.complaint, hforgets, hlong, unique?_of_header? hh]
  refine ⟨⟨header.unique, unique?_of_header? hh, hcomplaint⟩, ?_⟩
  rcases message?_of_isInit ⟨header, hh, hop⟩ with hm | ⟨init, hm⟩
  · exact ⟨ending_of_unread hm, beside_handleFrame srv o.queueOpen hm⟩
  · obtain ⟨header', hh', hframe⟩ := read_of_message? srv hm
    obtain rfl : header = header' := Option.some.inj (hh.symm.trans hh')
    have hrefused : x.session.handleFrame srv x.frame =
        ((x.session.note (.unexpectedInit header.unique)).sendErrno header.unique .eio, none) := by
      rw [hframe]
      simp [handleMessage, hrun]
    rw [hrefused, hcomplaint]
    exact ⟨rfl, (Hub.Beside.ofNote _ _).sent o.queueOpen _, rfl, rfl, rfl, rfl, rfl,
      fun h => Bool.noConfusion h⟩

/-- A frame that does nothing, among the frames of an input. -/
theorem inert_among (srv : Server σ) (user : σ) {before : List Input} (after : List Input)
    {front : List Bytes} (back : List Bytes) {x : Receipt σ}
    (hr : ((start user).run srv before).result = none)
    (hf : ((start user).run srv before).receive srv front = (x.session, none))
    (hending : (x.session.handleFrame srv x.frame).2 = none)
    (hb : Beside true x.session.hub.acts (x.session.hub.acts ++ x.complaint.map .sent) x.session
      (x.session.handleFrame srv x.frame).1) :
    Inert x ((start user).run srv (before ++ .frames (front ++ back) :: after))
      ((start user).run srv (before ++ .frames (front ++ x.frame :: back) :: after)) := by
  obtain ⟨xs, c⟩ := course_front hr hf
  have hr' : x.session.result = none := (c.onward (open_start user).queueOpen).2
  have hstep := beside_front hr' (receive_singleton hending) hb back
  rw [run_append, run_append, run_cons, run_cons, step_of_front hr hr' hf,
    step_of_front hr hr' hf]
  exact inert_of_beside (hstep.run srv after)

/-- A frame that does nothing, in an input of its own. -/
theorem inert_apart (srv : Server σ) (user : σ) {before : List Input} (after : List Input)
    {x : Receipt σ} (hx : (start user).run srv before = x.session)
    (hr : x.session.result = none)
    (hending : (x.session.handleFrame srv x.frame).2 = none)
    (hb : Beside true x.session.hub.acts (x.session.hub.acts ++ x.complaint.map .sent) x.session
      (x.session.handleFrame srv x.frame).1) :
    Inert x ((start user).run srv (before ++ after))
      ((start user).run srv (before ++ .frames [x.frame] :: after)) := by
  have hturns : x.session.hub.turns = [] := hx ▸ turns_run srv user before
  have hstep := beside_front hr (receive_singleton hending) hb []
  rw [run_append, run_append, run_cons, hx]
  exact inert_of_beside ((hstep.left (beside_idle srv hr hturns).symm).run srv after)

/-! ## The law -/

/-- The file system is asked about the parameters at most once, and the connection is
opened at most once, by one frame, and never changes. From that frame on, messages are
read, and answers are laid out, in the version that the answer to it tells. While the
session waits for a proposal, and so at the start of a run, any number of proposals that
are too new may come: each is told our version, and nothing else differs. On a connection,
a proposal gets an error and does nothing. -/
theorem the_handshake_takes_effect_once (srv : Server σ) (user : σ) :
    (∀ inputs : List Input,
      ((start user).run srv inputs).hub.greetings.length ≤ 1 ∧
      ((start user).run srv inputs).hub.journal.count (.entered .running) ≤ 1 ∧
      (∀ before c, before <+: inputs → ((start user).run srv before).hub.connection = some c →
        ((start user).run srv inputs).hub.connection = some c) ∧
      (∀ c, ((start user).run srv inputs).hub.connection = some c ↔
        ∃ xs x ys, (start user).receipts srv inputs = xs ++ x :: ys ∧ x.Opens srv c) ∧
      ∀ xs x ys c, (start user).receipts srv inputs = xs ++ x :: ys → x.Opens srv c →
        Opening srv user inputs xs x ys c) ∧
    (∀ (before after : List Input) (inputs : List (List Bytes)),
      ((start user).run srv before).hub.state = .created →
      (∀ frame ∈ inputs.flatten, (overture? frame).isSome = true) →
      Retried (inputs.flatten.filterMap overture?) ((start user).run srv before)
        ((start user).run srv (before ++ after))
        ((start user).run srv (before ++ inputs.map .frames ++ after))) ∧
    (∀ (before after : List Input) (front news back : List Bytes) (t : Session σ),
      ((start user).run srv before).receive srv front = (t, none) → t.hub.state = .created →
      ((start user).run srv before).result = none →
      (∀ frame ∈ news, (overture? frame).isSome = true) →
      Retried (news.filterMap overture?) t
        ((start user).run srv (before ++ .frames (front ++ back) :: after))
        ((start user).run srv (before ++ .frames (front ++ (news ++ back)) :: after))) ∧
    (∀ (before after : List Input) (front back : List Bytes) (x : Receipt σ),
      ((start user).run srv before).receive srv front = (x.session, none) →
      ((start user).run srv before).result = none →
      x.session.hub.state = .running → x.IsInit →
      (∃ unique, x.unique? = some unique ∧ x.complaint = [.ofErrno unique .eio]) ∧
      Inert x ((start user).run srv (before ++ .frames (front ++ back) :: after))
        ((start user).run srv (before ++ .frames (front ++ x.frame :: back) :: after))) ∧
    ∀ (before after : List Input) (x : Receipt σ), (start user).run srv before = x.session →
      x.session.hub.state = .running → x.IsInit →
      (∃ unique, x.unique? = some unique ∧ x.complaint = [.ofErrno unique .eio]) ∧
      Inert x ((start user).run srv (before ++ after))
        ((start user).run srv (before ++ .frames [x.frame] :: after)) := by
  refine ⟨fun inputs => ?_, ?_, ?_, ?_, ?_⟩
  · have o := (lasting_once srv).run (s := start user) (once_start user) inputs
    exact ⟨o.greetings, o.openings, fun _ _ hb hc => connection_of_prefix srv user hb hc,
      connection_run_iff srv user inputs, fun _ _ _ _ hxs h => opening hxs h⟩
  · intro before after inputs hs h
    exact retried_apart srv user after hs h (result_of_state (by simp [hs]))
  · intro before after front news back t hf hs hr h
    exact retried_among srv user after back hr hf hs h
  · intro before after front back x hf hr hrun hinit
    obtain ⟨xs, c⟩ := course_front hr hf
    obtain ⟨hcomplaint, hending, hb⟩ := beside_lateInit srv (c.open (open_start user)) hrun hinit
    exact ⟨hcomplaint, inert_among srv user after back hr hf hending hb⟩
  · intro before after x hx hrun hinit
    have hr : ((start user).run srv before).result = none := result_of_state (by simp [hx, hrun])
    have o := (course_run hr).open (open_start user)
    rw [hx] at hr o
    obtain ⟨hcomplaint, hending, hb⟩ := beside_lateInit srv o hrun hinit
    exact ⟨hcomplaint, inert_apart srv user after hx hr hending hb⟩

/-- A proposal of version 8, and the proposal that the kernel makes when it is told ours. -/
def tooNew : Bytes :=
  aboutRoot .init 9
    (Wire.encode ({ major := 8, minor := 0, maxReadahead := 0, flags := 0 } : Kernel.InitIn))

/-- The kernel proposes once more, on the connection. -/
def again : Receipt Unit := ⟨(start ()).run keeper [.frames [proposal]], proposal⟩

/-- A proposal that is too new may come twice before the one that opens the connection in
version 7.19, and that one may come once more. -/
theorem one_proposal_of_four_counts :
    Retried [9, 9] (start ()) ((start ()).run keeper [.frames [proposal]])
        ((start ()).run keeper [.frames [tooNew], .frames [tooNew], .frames [proposal]]) ∧
      (∃ xs x ys c, Opening keeper () [.frames [tooNew, proposal, proposal]] xs x ys c ∧
        c.minor = 19) ∧
      Inert again ((start ()).run keeper [.frames [proposal], .frames [aboutRoot .destroy 7 []]])
        ((start ()).run keeper
          [.frames [proposal], .frames [proposal], .frames [aboutRoot .destroy 7 []]]) ∧
      again.complaint = [.ofErrno 1 .eio] := by
  obtain ⟨hruns, hretried, -, -, hlate⟩ := the_handshake_takes_effect_once keeper ()
  have hnew : ∀ frame ∈ [[tooNew], [tooNew]].flatten, (overture? frame).isSome = true := by
    decide +kernel
  have hnine : [[tooNew], [tooNew]].flatten.filterMap overture? = [9, 9] := by decide +kernel
  have htwice := hretried [] [.frames [proposal]] [[tooNew], [tooNew]] rfl hnew
  rw [hnine] at htwice
  obtain ⟨-, -, -, hconnected, hopening⟩ := hruns [.frames [tooNew, proposal, proposal]]
  have hminor : ((start ()).run keeper [.frames [tooNew, proposal, proposal]]).hub.connection.map
      (·.minor) = some 19 := by decide +kernel
  obtain ⟨c, hc, hm⟩ := Option.map_eq_some_iff.mp hminor
  obtain ⟨xs, x, ys, hxs, hopens⟩ := (hconnected c).mp hc
  have hinit : again.IsInit := by
    refine ⟨again.header?.get (by decide +kernel), by simp, by decide +kernel⟩
  obtain ⟨⟨u, hu, hcomplaint⟩, hinert⟩ :=
    hlate [.frames [proposal]] [.frames [aboutRoot .destroy 7 []]] again rfl (by decide +kernel)
      hinit
  have hone : again.unique? = some 1 := by decide +kernel
  obtain rfl : u = 1 := Option.some.inj (hu.symm.trans hone)
  exact ⟨htwice, ⟨xs, x, ys, c, hopening xs x ys c hxs hopens, hm⟩, hinert, hcomplaint⟩

end Fuse.Session
