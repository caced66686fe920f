-- How a session winds down. When the end begins, the map of pending requests holds
-- just those that nobody answered; the file system says goodbye once; what is left
-- then gets an error, the kernel its last answer, and after that nothing is sent.
import Fuse.Proofs.Replies

namespace Fuse.Session

variable {σ : Type} {srv : Server σ} {user : σ}

/-! ## What is pending -/

theorem dueTo_le_one {xs : List (Receipt σ)} (hn : (xs.filterMap Receipt.unique?).Nodup)
    (u : UInt64) : dueTo xs u ≤ 1 := by
  by_cases hu : u ∈ xs.filterMap Receipt.unique?
  · obtain ⟨x, hx, hxu⟩ := List.mem_filterMap.mp hu
    rw [dueTo_of_mem hn hx hxu]
    unfold Receipt.due
    split <;> decide
  · rw [dueTo_of_not_mem hu]
    decide

/-- A number that is pending had no answer yet. -/
theorem unanswered_of_pending {xs : List (Receipt σ)} {s : Session σ} {last : List Frame}
    (b : Balanced xs s last) (hn : (xs.filterMap Receipt.unique?).Nodup) {u : UInt64}
    (hp : (s.hub.pending.get? u).isSome = true) : ∀ f ∈ s.hub.queue, f.unique ≠ u := by
  intro f hf hu
  have hcount : 0 < s.hub.queue.countP (fun f => decide (f.unique = u)) :=
    List.countP_pos_iff.mpr ⟨f, hf, decide_eq_true hu⟩
  have ht := b.tally u
  have hle := dueTo_le_one hn u
  unfold Hub.tally at ht
  rw [if_pos hp] at ht
  omega

/-- The map of pending requests says which requests are held, and those are the
ones that had no answer yet. -/
structure PendingIsUnanswered (s : Session σ) : Prop where
  nodup : (s.hub.pending.map (·.1)).Nodup
  mem_iff : ∀ u i, (u, i) ∈ s.hub.pending ↔ ∃ r op, (r, op) ∈ s.hub.calls ∧
    r.unique = u ∧ r.handle = i ∧ r.kind.expectsReply = true ∧ ∀ f ∈ s.hub.queue, f.unique ≠ u
  held_iff : ∀ r op, (r, op) ∈ s.hub.calls → r.kind.expectsReply = true →
    (r ∈ s.held ↔ ∀ f ∈ s.hub.queue, f.unique ≠ r.unique)

theorem pendingIsUnanswered {xs : List (Receipt σ)} {s : Session σ} {last : List Frame}
    (b : Balanced xs s last) (l : Roll s) (hn : (xs.filterMap Receipt.unique?).Nodup) :
    PendingIsUnanswered s := by
  have htracked {r : Request} (hr : r ∈ s.held) (hk : r.kind.expectsReply = true) :
      s.hub.pending.get? r.unique = some r.handle := by
    rw [b.ledger.tracked r hr, if_pos hk]
  have hheld : ∀ r op, (r, op) ∈ s.hub.calls → r.kind.expectsReply = true →
      (r ∈ s.held ↔ ∀ f ∈ s.hub.queue, f.unique ≠ r.unique) := by
    intro r op hc hk
    constructor
    · intro hr
      refine unanswered_of_pending b hn ?_
      rw [htracked hr hk]
      rfl
    · intro hnone
      refine l.outstanding r op hc (Decidable.byContradiction fun hp => ?_)
      obtain ⟨f, hf, hu⟩ := l.replied r op hc hk hp
      exact hnone f hf hu
  refine ⟨?_, ?_, hheld⟩
  · refine List.pairwise_map.mpr (b.ledger.sorted.imp ?_)
    intro p q hlt he
    rw [he] at hlt
    exact Std.Irrefl.irrefl (r := (· < ·)) _ hlt
  · intro u i
    rw [← KeyedList.get?_eq_some_iff b.ledger.sorted]
    constructor
    · intro hg
      obtain ⟨r, hr, hk, hu, hi⟩ := b.ledger.owed u i hg
      obtain ⟨op, hc⟩ := l.called r hr
      exact ⟨r, op, hc, hu, hi, hk, hu ▸ (hheld r op hc hk).mp hr⟩
    · rintro ⟨r, op, hc, rfl, rfl, hk, hnone⟩
      exact htracked ((hheld r op hc hk).mpr hnone) hk

/-! ## The farewell -/

/-- The file system is told about the end once, if it had a connection and wants
to be told. -/
theorem dismissals_dismissed (srv : Server σ) (s : Session σ) [Decidable (HasFarewell srv s)] :
    (s.dismissed srv).hub.dismissals =
      s.hub.dismissals + if HasFarewell srv s then 1 else 0 := by
  have henter : (s.enter .destroying).hub.dismissals = s.hub.dismissals :=
    Hub.dismissals_record { s.hub with state := .destroying } (by simp)
  rcases course_farewell srv (s.enter .destroying) with ⟨hno, h⟩ | ⟨hyes, c⟩
  · have hno' : ¬HasFarewell srv s := hno
    unfold dismissed
    rw [h, if_neg hno']
    exact henter
  · have hyes' : HasFarewell srv s := hyes
    rw [if_pos hyes', ← henter]
    refine c.steady.1.dismissals.trans ?_
    show ((s.enter .destroying).hub.record .dismissed).deeds.count .dismissed = _
    rw [Hub.deeds_record]
    simp [Deed.counts, Hub.dismissals]

theorem dismissals_windDown (srv : Server σ) (s : Session σ) (ending : Ending) :
    (s.windDown srv ending).hub.dismissals = (s.dismissed srv).hub.dismissals := by
  have hclose := Hub.steady_closePending srv.drain (s.dismissed srv).hub
  rcases ending with e | exit
  · exact hclose.dismissals
  · cases exit with
    | destroy unique => exact (hclose.trans (Hub.steady_send _ (.success unique))).dismissals
    | unmounted => exact hclose.dismissals
    | shutdown => exact hclose.dismissals

/-! ## What is closed -/

/-- After the farewell, a request gets an error if it still waits, and nothing if it
was answered. -/
theorem closing_settles_the_rest (drain : Drain) {xs : List (Receipt σ)} {t : Session σ}
    {last : List Frame} (b : Balanced xs t last) (l : Roll t)
    (hn : (xs.filterMap Receipt.unique?).Nodup) {r : Request} {op : Operation}
    (hc : (r, op) ∈ t.hub.calls) (hk : r.kind.expectsReply = true) :
    ((drain.order t.hub.pending).map fun p => Frame.ofErrno p.1 .enotconn).countP
        (fun f => decide (f.unique = r.unique)) =
      if t.hub.progress r = .pending then 1 else 0 := by
  rw [count_closing drain b.ledger]
  by_cases hp : t.hub.progress r = .pending
  · have hr := l.outstanding r op hc hp
    rw [if_pos hp, b.ledger.tracked r hr, if_pos hk]
    rfl
  · obtain ⟨f, hf, hu⟩ := l.replied r op hc hk hp
    rw [if_neg hp, if_neg]
    intro hs
    exact unanswered_of_pending b hn hs f hf hu

theorem balanced_dismissed (srv : Server σ) {xs : List (Receipt σ)} {s : Session σ}
    {last : List Frame} (b : Balanced xs s last) (ho : s.hub.queueOpen = true)
    (hr : s.hub.reachable = true) : Balanced xs (s.dismissed srv) last := by
  obtain ⟨l, ht⟩ := ledger_dismissed srv b.ledger ho hr
  refine ⟨l, ?_⟩
  intro u
  rw [ht u, b.tally u]

/-! ## The law -/

/-- When a run comes to its end, and its requests had different numbers, the map of
pending requests holds just those that handlers were called with and that had no
answer yet. The file system is told about the end exactly once if the session ran and
it wants to be told, and never otherwise. Each request that still waits after that
gets one error, in whatever order they come out, and none that was answered does. The
last frame is the answer to the kernel that ended the session, if it did. From then on
nothing is sent, whatever is done with requests, and whether or not the handle that
stops the session is held. -/
theorem the_end_settles_what_is_pending (srv : Server σ) (user : σ) (inputs : List Input)
    (s : Session σ) (ending : Ending)
    (hn : (((start user).receipts srv inputs).filterMap Receipt.unique?).Nodup)
    (he : (start user).endOf srv inputs = some (s, ending)) :
    PendingIsUnanswered s ∧
    ((start user).run srv inputs).hub.journal.count .dismissed =
      (if s.hub.state = .running ∧ srv.table.onDestroy.isSome = true then 1 else 0) ∧
    s.hub.queue <+: (s.dismissed srv).hub.queue ∧
    (s.dismissed srv).hub.calls = s.hub.calls ∧
    PendingIsUnanswered (s.dismissed srv) ∧
    ((start user).run srv inputs).hub.queue = (s.dismissed srv).hub.queue ++
      ((srv.drain.order (s.dismissed srv).hub.pending).map fun p => .ofErrno p.1 .enotconn) ++
        lastAnswer ending ∧
    (∀ r op, (r, op) ∈ s.hub.calls → r.kind.expectsReply = true →
      ((srv.drain.order (s.dismissed srv).hub.pending).map fun p =>
          Frame.ofErrno p.1 .enotconn).countP (fun f => decide (f.unique = r.unique)) =
        if (s.dismissed srv).hub.progress r = .pending then 1 else 0) ∧
    ∀ (after : List Input) (r : Request) (a : Answer),
      (((start user).run srv inputs).run srv after).hub.queue =
        ((start user).run srv inputs).hub.queue ∧
      ((((start user).run srv inputs).run srv after).answer srv r a).1.hub.queue =
        ((start user).run srv inputs).hub.queue := by
  rcases run_cases srv (s := start user) rfl (open_start user) inputs with
    ⟨hnone, -⟩ | ⟨s', ending', hsome, hends, hover⟩
  · rw [hnone] at he
    cases he
  · rw [hsome] at he
    cases he
    have o := hends.open (open_start user)
    have b := hends.balanced hn
    have l := hends.roll (roll_start user) rfl rfl
    have bd := balanced_dismissed srv b o.queueOpen o.reachable
    have ld := roll_dismissed srv l o.queueOpen o.reachable
    have hfarewell : HasFarewell srv s ↔
        s.hub.state = .running ∧ srv.table.onDestroy.isSome = true := by
      unfold HasFarewell
      rw [o.running]
    refine ⟨pendingIsUnanswered b l hn, ?_, (later_dismissed srv s).queue,
      calls_dismissed srv s, pendingIsUnanswered bd ld hn, ?_, ?_, ?_⟩
    · classical
      rw [← Hub.dismissals_eq_count, hover.dismissals, dismissals_windDown,
        dismissals_dismissed, o.dismissals, Nat.zero_add]
      simp only [hfarewell]
    · rw [(hover.later.closed (windDown_closed s ending)).2]
      exact queue_windDown b.ledger o.queueOpen o.reachable ending
    · intro r op hc hk
      exact closing_settles_the_rest srv.drain bd ld hn (calls_dismissed srv s ▸ hc) hk
    · intro after r a
      have hself : Over ((start user).run srv inputs) ((start user).run srv inputs) :=
        ⟨hover.result, hover.state, hover.queueOpen, .refl _, rfl⟩
      have hafter := over_run srv hself after
      have hqueue := (hafter.later.closed hover.queueOpen).2
      have hanswer := (Hub.steady_answer srv.profile
        (((start user).run srv inputs).run srv after).hub r a).closed hafter.queueOpen
      exact ⟨hqueue, hanswer.2.trans hqueue⟩

/-- Of two lookups that are kept, the file system lets one go at the end, and the
session closes the other. -/
theorem the_end_settles_kept_lookups :
    ∃ s, (start ()).endOf keeper keptLookups = some (s, .ok (.destroy 7)) ∧
      PendingIsUnanswered s ∧
      ((start ()).run keeper keptLookups).hub.journal.count .dismissed =
        (if s.hub.state = .running ∧ keeper.table.onDestroy.isSome = true then 1 else 0) ∧
      ((start ()).run keeper keptLookups).hub.queue = (s.dismissed keeper).hub.queue ++
        ((keeper.drain.order (s.dismissed keeper).hub.pending).map fun p =>
          .ofErrno p.1 .enotconn) ++ [.success 7] := by
  have hn : (((start ()).receipts keeper keptLookups).filterMap Receipt.unique?).Nodup := by
    decide +kernel
  have hend : ((start ()).endOf keeper keptLookups).map (·.2) = some (.ok (.destroy 7)) := by
    decide +kernel
  obtain ⟨⟨s, ending⟩, he, rfl⟩ := Option.map_eq_some_iff.mp hend
  have hsettled := the_end_settles_what_is_pending keeper () keptLookups s _ hn he
  obtain ⟨hpending, hcount, -, -, -, hqueue, -⟩ := hsettled
  exact ⟨s, he, hpending, hcount, hqueue⟩

end Fuse.Session
