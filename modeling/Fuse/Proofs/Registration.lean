-- What a table holds after any registrations: for each kind the handler that came last.
-- Servers whose tables hold the same make the same of every run.
import Fuse.Session.Registration
import Mathlib.Data.List.Induction

namespace Fuse

variable {σ : Type}

/-! ## One registration -/

namespace Table

/-- Without a request there is nothing to register. -/
theorem install_of_bare (t : Table σ) {kind : OpKind} (h : kind.carriesRequest = false)
    (handler : Handler σ) : t.install (.register kind handler) = (t, some (.noRequest kind)) := by
  simp [install, register, h, install.after]

theorem install_register (t : Table σ) (kind : OpKind) (handler : Handler σ) :
    (t.install (.register kind handler)).1 =
      if kind.carriesRequest = true then t.set kind handler else t := by
  cases hc : kind.carriesRequest with
  | true => simp [install, register, hc, install.after]
  | false => simp [install_of_bare t hc]

theorem resolve_register (t : Table σ) (k : OpKind) (handler : Handler σ) (kind : OpKind) :
    (t.install (.register k handler)).1.resolve kind =
      if k = kind ∧ kind.carriesRequest = true then some handler else t.resolve kind := by
  rw [install_register]
  by_cases hk : k = kind
  · subst hk
    cases hc : k.carriesRequest <;> simp [resolve, set]
  · have hne : kind ≠ k := Ne.symm hk
    cases hc : k.carriesRequest <;> simp [resolve, set, hk, hne]

/-- A kind is served by the handler that is installed, or by the one before it. -/
theorem holds_install {t : Table σ} {kind : OpKind} {last : Option (TypedHandler σ kind)}
    (h : Holds (t.resolve kind) last) (reg : Registration σ) :
    Holds ((t.install reg).1.resolve kind) ((reg.serves kind).or last) := by
  cases reg with
  | register k handler =>
    rw [resolve_register, Registration.serves]
    split
    · exact fun _ _ _ _ => rfl
    · exact h
  | on k handler =>
    show Holds ((t.install (.register k (only k handler))).1.resolve kind) _
    rw [resolve_register, Registration.serves]
    split
    · rename_i hk
      exact fun _ _ _ hop => dif_pos (hop.trans hk.1.symm)
    · exact h
  | onInit handler => exact h
  | onDestroy handler => exact h

theorem onInit_install (t : Table σ) (reg : Registration σ) :
    (t.install reg).1.onInit = reg.onInit?.or t.onInit := by
  cases reg with
  | register k handler =>
    rw [install_register]
    split <;> rfl
  | on k handler =>
    show (t.install (.register k (only k handler))).1.onInit = _
    rw [install_register]
    split <;> rfl
  | onInit handler => rfl
  | onDestroy handler => rfl

theorem onDestroy_install (t : Table σ) (reg : Registration σ) :
    (t.install reg).1.onDestroy = reg.onDestroy?.or t.onDestroy := by
  cases reg with
  | register k handler =>
    rw [install_register]
    split <;> rfl
  | on k handler =>
    show (t.install (.register k (only k handler))).1.onDestroy = _
    rw [install_register]
    split <;> rfl
  | onInit handler => rfl
  | onDestroy handler => rfl

/-! ## All registrations -/

theorem build_concat (regs : List (Registration σ)) (reg : Registration σ) :
    build (regs ++ [reg]) = ((build regs).install reg).1 := by
  unfold build
  rw [List.foldl_append]
  rfl

/-- The last of some values, when one more may be added. -/
theorem getLast?_filterMap_concat {α β : Type} (f : α → Option β) (xs : List α) (x : α) :
    ((xs ++ [x]).filterMap f).getLast? = (f x).or (xs.filterMap f).getLast? := by
  rw [List.filterMap_append, List.getLast?_append]
  congr 1
  cases h : f x <;> simp [h]

theorem holds_build (regs : List (Registration σ)) (kind : OpKind) :
    Holds ((build regs).resolve kind) (Registration.lastFor regs kind) := by
  induction regs using List.reverseRecOn with
  | nil => trivial
  | append_singleton regs reg ih =>
    unfold Registration.lastFor
    rw [build_concat, getLast?_filterMap_concat]
    exact holds_install ih reg

theorem onInit_build (regs : List (Registration σ)) :
    (build regs).onInit = (regs.filterMap Registration.onInit?).getLast? := by
  induction regs using List.reverseRecOn with
  | nil => rfl
  | append_singleton regs reg ih =>
    rw [build_concat, getLast?_filterMap_concat, onInit_install, ih]

theorem onDestroy_build (regs : List (Registration σ)) :
    (build regs).onDestroy = (regs.filterMap Registration.onDestroy?).getLast? := by
  induction regs using List.reverseRecOn with
  | nil => rfl
  | append_singleton regs reg ih =>
    rw [build_concat, getLast?_filterMap_concat, onDestroy_install, ih]

end Table

/-! ## Servers that hold the same -/

/-- The two do the same with every operation, and at the two ends of a session. -/
structure Server.Same (srv srv' : Server σ) : Prop where
  profile : srv.profile = srv'.profile
  drain : srv.drain = srv'.drain
  onInit : srv.table.onInit = srv'.table.onInit
  onDestroy : srv.table.onDestroy = srv'.table.onDestroy
  isSome : ∀ kind, (srv.table.resolve kind).isSome = (srv'.table.resolve kind).isSome
  handler : ∀ (op : Operation) (h h' : Handler σ), srv.table.resolve op.kind = some h →
    srv'.table.resolve op.kind = some h' → ∀ user r, h user r op = h' user r op

namespace Session

variable {srv srv' : Server σ}

/-! Answers, tasks and the farewell depend on the profile only, and on what is done at the
two ends. -/

theorem answer_same (e : srv.Same srv') (s : Session σ) (r : Request) (a : Answer) :
    s.answer srv r a = s.answer srv' r a := by
  unfold answer
  rw [e.profile]

theorem use_same (e : srv.Same srv') (s : Session σ) (r : Request) (u : Use) :
    s.use srv r u = s.use srv' r u := by
  cases u with
  | answer a => exact answer_same e s r a
  | keep => rfl
  | onInterrupt a => rfl

theorem dispatch_same (e : srv.Same srv') (s : Session σ) (header : Kernel.InHeader)
    (op : Operation) : s.dispatch srv header op = s.dispatch srv' header op := by
  have hsome := e.isSome op.kind
  unfold dispatch
  dsimp only
  cases h : srv.table.resolve op.kind with
  | none =>
    rw [h] at hsome
    have h' : srv'.table.resolve op.kind = none := by simpa using hsome.symm
    rw [h']
    dsimp only
    rw [answer_same e]
  | some handler =>
    rw [h] at hsome
    obtain ⟨handler', h'⟩ := Option.isSome_iff_exists.mp hsome.symm
    rw [h']
    dsimp only
    rw [e.handler op handler handler' h h', use_same e]

theorem answerKept_same (e : srv.Same srv') (s : Session σ) (place : Nat) (a : Answer) :
    s.answerKept srv place a = s.answerKept srv' place a := by
  unfold answerKept
  split
  · rw [answer_same e]
  · rfl

theorem answerAllKept_same (e : srv.Same srv') (s : Session σ) (answers : List (Nat × Answer)) :
    s.answerAllKept srv answers = s.answerAllKept srv' answers := by
  induction answers generalizing s with
  | nil => rfl
  | cons p rest ih =>
    unfold answerAllKept
    rw [answerKept_same e]
    simp only [ih]

/-! ## Frames -/

theorem handshake_same (e : srv.Same srv') (s : Session σ) (unique : UInt64)
    (init : Kernel.InitIn) : s.handshake srv unique init = s.handshake srv' unique init := by
  unfold handshake greet
  rw [e.onInit]

theorem handleMessage_same (e : srv.Same srv') (s : Session σ) (header : Kernel.InHeader)
    (m : Message) : s.handleMessage srv header m = s.handleMessage srv' header m := by
  unfold handleMessage
  simp only [handshake_same e, dispatch_same e]

theorem handleFrame_same (e : srv.Same srv') (s : Session σ) (frame : Bytes) :
    s.handleFrame srv frame = s.handleFrame srv' frame := by
  unfold handleFrame
  simp only [handleMessage_same e]

theorem receive_same (e : srv.Same srv') (s : Session σ) (frames : List Bytes) :
    s.receive srv frames = s.receive srv' frames := by
  induction frames generalizing s with
  | nil => rfl
  | cons frame frames ih =>
    unfold receive
    rw [handleFrame_same e]
    simp only [ih]

/-! ## The end -/

theorem runTask_same (e : srv.Same srv') (s : Session σ) (handle : Nat) :
    s.runTask srv handle = s.runTask srv' handle := by
  unfold runTask
  simp only [answer_same e]

theorem comeToRest_same (e : srv.Same srv') (s : Session σ) :
    s.comeToRest srv = s.comeToRest srv' := by
  have hturn : takeTurn srv = takeTurn srv' := by
    funext t r
    cases r with
    | writer => rfl
    | task handle => exact runTask_same e t handle
  unfold comeToRest
  rw [hturn]

theorem finish_same (e : srv.Same srv') (s : Session σ) (ending : Ending) :
    s.finish srv ending = s.finish srv' ending := by
  have hfarewell (t : Session σ) : t.farewell srv = t.farewell srv' := by
    unfold farewell
    rw [e.onDestroy]
    simp only [answerAllKept_same e]
  unfold finish windDown
  simp only [hfarewell, e.drain, comeToRest_same e]

/-! ## Runs -/

theorem step_same (e : srv.Same srv') (s : Session σ) (input : Input) :
    s.step srv input = s.step srv' input := by
  have houtside : s.outside srv input = s.outside srv' input := by
    cases input with
    | answer place a =>
      have h := answerKept_same e s place a
      simp only [outside, h]
    | _ => rfl
  have hserve (t : Session σ) : t.serve srv input = t.serve srv' input := by
    cases input with
    | frames frames => exact receive_same e t frames
    | _ => rfl
  have hprogress (t : Session σ) : t.progress srv input = t.progress srv' input := by
    unfold progress
    rw [hserve]
    simp only [finish_same e]
  unfold step
  rw [houtside]
  simp only [hprogress, comeToRest_same e]

/-- Servers that hold the same make the same of every run. -/
theorem run_same (e : srv.Same srv') (s : Session σ) (inputs : List Input) :
    s.run srv inputs = s.run srv' inputs := by
  unfold run
  simp only [step_same e]

end Session

/-! ## Registrations that install the same -/

namespace Registration

theorem serves_like {reg reg' : Registration σ} (h : Like reg reg') (kind : OpKind) :
    reg.serves kind = reg'.serves kind := by
  cases h with
  | same => rfl
  | untyped k handler raw hraw =>
    rw [serves, serves]
    split
    · rename_i hk
      congr 1
      funext user r op hop
      exact (hraw user r op _).symm
    · rfl

theorem filterMap_like {β : Type} {f : Registration σ → Option β}
    (hf : ∀ reg reg', Like reg reg' → f reg = f reg') {regs regs' : List (Registration σ)}
    (h : List.Forall₂ Like regs regs') : regs.filterMap f = regs'.filterMap f := by
  induction h with
  | nil => rfl
  | cons hreg _ ih => rw [List.filterMap_cons, List.filterMap_cons, hf _ _ hreg, ih]

/-- Tables that were filled alike hold the same. -/
theorem same_build (profile : Profile) (drain : Drain) {regs regs' : List (Registration σ)}
    (h : List.Forall₂ Like regs regs') :
    Server.Same (σ := σ) ⟨.build regs, profile, drain⟩ ⟨.build regs', profile, drain⟩ := by
  have hlast (kind : OpKind) : lastFor regs kind = lastFor regs' kind := by
    unfold lastFor
    rw [filterMap_like (fun _ _ hreg => serves_like hreg kind) h]
  have hholds (kind : OpKind) := Table.holds_build regs kind
  have hholds' (kind : OpKind) := Table.holds_build regs' kind
  refine ⟨rfl, rfl, ?_, ?_, fun kind => ?_, fun op handler handler' hs hs' user r => ?_⟩
  · rw [Table.onInit_build, Table.onInit_build]
    refine congrArg _ (filterMap_like (fun _ _ hreg => ?_) h)
    cases hreg <;> rfl
  · rw [Table.onDestroy_build, Table.onDestroy_build]
    refine congrArg _ (filterMap_like (fun _ _ hreg => ?_) h)
    cases hreg <;> rfl
  · have ha := hholds kind
    have hb := hholds' kind
    rw [← hlast] at hb
    revert ha hb
    dsimp only
    cases (Table.build regs).resolve kind <;> cases (Table.build regs').resolve kind <;>
      cases lastFor regs kind <;> simp [Table.Holds]
  · have ha := hholds op.kind
    have hb := hholds' op.kind
    rw [← hlast] at hb
    dsimp only at hs hs'
    rw [hs] at ha
    rw [hs'] at hb
    cases hl : lastFor regs op.kind with
    | none =>
      rw [hl] at ha
      exact ha.elim
    | some installed =>
      rw [hl] at ha hb
      exact (ha user r op rfl).trans (hb user r op rfl).symm

end Registration

end Fuse
