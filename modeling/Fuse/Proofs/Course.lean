-- How a session gets from one moment to another: it receives frames, requests are
-- answered from outside, tasks run, and some things happen that change nothing
-- that counts. What each of these keeps, every course of them keeps.
import Fuse.Proofs.Growth
import Fuse.Session.History

namespace Fuse.Session

variable {σ : Type} {srv : Server σ}

/-! ## Sessions that are alike -/

/-- The two differ at most in the log, in whose turn it is, in the channel, and
in what the file system keeps for itself. -/
structure Alike (s s' : Session σ) : Prop where
  hub : Hub.Alike s.hub s'.hub
  kept : s'.kept = s.kept
  tasks : s'.tasks = s.tasks
  result : s'.result = s.result

theorem Alike.refl (s : Session σ) : Alike s s := ⟨.refl _, rfl, rfl, rfl⟩

theorem Alike.trans {s s' s'' : Session σ} (a : Alike s s') (b : Alike s' s'') : Alike s s'' :=
  ⟨a.hub.trans b.hub, b.kept.trans a.kept, b.tasks.trans a.tasks, b.result.trans a.result⟩

theorem Alike.held {s s' : Session σ} (a : Alike s s') : s'.held = s.held := by
  unfold Session.held
  rw [a.kept, a.tasks]

theorem alike_note (s : Session σ) (e : Event) : Alike s (s.note e) :=
  ⟨Hub.alike_note _ _, rfl, rfl, rfl⟩

theorem alike_notes (s : Session σ) (es : List Event) : Alike s (es.foldl note s) := by
  induction es generalizing s with
  | nil => exact .refl s
  | cons e es ih => exact (alike_note s e).trans (ih _)

theorem alike_carry (s : Session σ) (f : Frame) : Alike s (s.carry f) := by
  unfold carry
  dsimp only
  split
  · exact ⟨Hub.alike_note _ _, rfl, rfl, rfl⟩
  · exact ⟨.refl _, rfl, rfl, rfl⟩

theorem flush_keeps {motive : Session σ → Prop}
    (hcarry : ∀ t f, motive t → motive (t.carry f)) {s : Session σ} (h : motive s) :
    motive s.flush :=
  List.foldlRecOn _ carry h fun t ht f _ => hcarry t f ht

theorem alike_flush (s : Session σ) : Alike s s.flush :=
  flush_keeps (fun t f ht => ht.trans (alike_carry t f)) (.refl s)

theorem alike_clearTurns (s : Session σ) : Alike s s.clearTurns :=
  ⟨⟨rfl, rfl, rfl, rfl, rfl, rfl, rfl⟩, rfl, rfl, rfl⟩

/-- Whoever goes on, it is the writer or a task: what each of them keeps, coming to rest
keeps. -/
theorem comeToRest_keeps {motive : Session σ → Prop}
    (hclear : ∀ t, motive t → motive t.clearTurns) (hflush : ∀ t, motive t → motive t.flush)
    (htask : ∀ t handle, motive t → motive (t.runTask srv handle)) {s : Session σ}
    (h : motive s) : motive (s.comeToRest srv) := by
  have hturns : motive (s.hub.turns.foldl (takeTurn srv) s.clearTurns) := by
    refine List.foldlRecOn _ _ (hclear s h) ?_
    intro t ht r _
    cases r with
    | writer => exact hflush t ht
    | task handle => exact htask t handle ht
  exact hclear _ (hflush _ hturns)

/-! ## Answers from outside -/

/-- The session after one of the requests in its places was answered. -/
def afterKept (srv : Server σ) (s : Session σ) (place : Nat) (r : Request) (a : Answer) :
    Session σ :=
  { s with kept := s.kept.set place none, hub := (s.hub.answer srv.profile r a).1 }

/-- The session after one of its tasks answered. -/
def afterTask (srv : Server σ) (s : Session σ) (handle : Nat) (t : Task) : Session σ :=
  { s with
    tasks := s.tasks.eraseP (·.request.handle == handle)
    hub := (s.hub.answer srv.profile t.request t.answer).1 }

theorem answerKept_cases (srv : Server σ) (s : Session σ) (place : Nat) (a : Answer) :
    (s.answerKept srv place a).1 = s ∨
      ∃ r, s.kept[place]? = some (some r) ∧
        (s.answerKept srv place a).1 = s.afterKept srv place r a := by
  unfold answerKept kept?
  cases hk : s.kept[place]? with
  | none => exact Or.inl rfl
  | some o =>
    cases o with
    | none => exact Or.inl rfl
    | some r => exact Or.inr ⟨r, rfl, rfl⟩

theorem runTask_cases (srv : Server σ) (s : Session σ) (handle : Nat) :
    s.runTask srv handle = s ∨
      ∃ t, s.tasks.find? (·.request.handle == handle) = some t ∧
        s.runTask srv handle = s.afterTask srv handle t := by
  unfold runTask
  split
  · rename_i t ht
    split
    · exact Or.inr ⟨t, ht, rfl⟩
    · exact Or.inl rfl
  · exact Or.inl rfl

theorem steady_answerKept (srv : Server σ) (s : Session σ) (place : Nat) (a : Answer) :
    Hub.Steady s.hub (s.answerKept srv place a).1.hub := by
  rcases answerKept_cases srv s place a with h | ⟨r, -, h⟩
  · rw [h]
    exact .refl _
  · rw [h]
    exact Hub.steady_answer _ _ _ _

theorem steady_runTask (srv : Server σ) (s : Session σ) (handle : Nat) :
    Hub.Steady s.hub (s.runTask srv handle).hub := by
  rcases runTask_cases srv s handle with h | ⟨t, -, h⟩
  · rw [h]
    exact .refl _
  · rw [h]
    exact Hub.steady_answer _ _ _ _

theorem result_answerKept (s : Session σ) (place : Nat) (a : Answer) :
    (s.answerKept srv place a).1.result = s.result := by
  rcases answerKept_cases srv s place a with h | ⟨r, -, h⟩
  · rw [h]
  · rw [h]
    rfl

theorem result_runTask (s : Session σ) (handle : Nat) :
    (s.runTask srv handle).result = s.result := by
  rcases runTask_cases srv s handle with h | ⟨t, -, h⟩
  · rw [h]
  · rw [h]
    rfl

/-! ## Courses -/

/-- The session may get from the first moment to the second, and these are the
frames that it receives on the way. None of them ends it. -/
inductive Course (srv : Server σ) (s : Session σ) : List (Receipt σ) → Session σ → Prop where
  | refl : Course srv s [] s
  | frame {xs : List (Receipt σ)} {s' s'' : Session σ} {frame : Bytes} (c : Course srv s xs s')
      (h : s'.handleFrame srv frame = (s'', none)) : Course srv s (xs ++ [⟨s', frame⟩]) s''
  | answer {xs : List (Receipt σ)} {s' : Session σ} (c : Course srv s xs s') (place : Nat)
      (a : Answer) : Course srv s xs (s'.answerKept srv place a).1
  | task {xs : List (Receipt σ)} {s' : Session σ} (c : Course srv s xs s') (handle : Nat) :
      Course srv s xs (s'.runTask srv handle)
  | quiet {xs : List (Receipt σ)} {s' s'' : Session σ} (c : Course srv s xs s')
      (h : Alike s' s'') : Course srv s xs s''

namespace Course

theorem ofAlike {s s' : Session σ} (h : Alike s s') : Course srv s [] s' := refl.quiet h

theorem trans {s s' s'' : Session σ} {xs ys : List (Receipt σ)} (c : Course srv s xs s')
    (d : Course srv s' ys s'') : Course srv s (xs ++ ys) s'' := by
  induction d with
  | refl =>
    rw [List.append_nil]
    exact c
  | frame _ h ih =>
    rw [← List.append_assoc]
    exact ih.frame h
  | answer _ place a ih => exact ih.answer place a
  | task _ handle ih => exact ih.task handle
  | quiet _ h ih => exact ih.quiet h

theorem transIdle {s s' s'' : Session σ} {xs : List (Receipt σ)} (c : Course srv s xs s')
    (d : Course srv s' [] s'') : Course srv s xs s'' := by
  have h := c.trans d
  rwa [List.append_nil] at h

/-- A course goes through the moment of each frame that was received on the way. -/
theorem split {s s' : Session σ} {zs : List (Receipt σ)} (c : Course srv s zs s')
    {xs ys : List (Receipt σ)} {x : Receipt σ} (h : zs = xs ++ x :: ys) :
    Course srv s xs x.session ∧ Course srv x.session (x :: ys) s' := by
  induction c generalizing ys with
  | refl => exact absurd h (by simp)
  | @frame zs s' s'' frame c hf ih =>
    rcases List.eq_nil_or_concat ys with rfl | ⟨ys, y, rfl⟩
    · obtain ⟨rfl, hx⟩ := List.append_inj' h rfl
      obtain rfl : ⟨s', frame⟩ = x := List.head_eq_of_cons_eq hx
      exact ⟨c, Course.refl.frame hf⟩
    · rw [List.concat_eq_append, ← List.cons_append, ← List.append_assoc] at h
      obtain ⟨rfl, hy⟩ := List.append_inj' h rfl
      obtain rfl : ⟨s', frame⟩ = y := List.head_eq_of_cons_eq hy
      rw [List.concat_eq_append, ← List.cons_append]
      exact ⟨(ih rfl).1, (ih rfl).2.frame hf⟩
  | answer _ place a ih => exact ⟨(ih h).1, (ih h).2.answer place a⟩
  | task _ handle ih => exact ⟨(ih h).1, (ih h).2.task handle⟩
  | quiet _ hq ih => exact ⟨(ih h).1, (ih h).2.quiet hq⟩

/-- Without frames, the session stays where it stands. -/
theorem steady {s s' : Session σ} (c : Course srv s [] s') :
    Hub.Steady s.hub s'.hub ∧ s'.result = s.result := by
  generalize hxs : ([] : List (Receipt σ)) = xs at c
  induction c with
  | refl => exact ⟨.refl _, rfl⟩
  | frame => exact absurd hxs (by simp)
  | answer _ place a ih =>
    exact ⟨(ih hxs).1.trans (steady_answerKept srv _ place a),
      (result_answerKept _ place a).trans (ih hxs).2⟩
  | task _ handle ih =>
    exact ⟨(ih hxs).1.trans (steady_runTask srv _ handle),
      (result_runTask _ handle).trans (ih hxs).2⟩
  | quiet _ h ih => exact ⟨(ih hxs).1.trans h.hub.steady, h.result.trans (ih hxs).2⟩

end Course

/-! ## Small courses -/

theorem course_takeTurn (s : Session σ) (r : Runner) : Course srv s [] (s.takeTurn srv r) := by
  cases r with
  | writer => exact .ofAlike (alike_flush s)
  | task handle => exact Course.refl.task handle

theorem course_comeToRest (srv : Server σ) (s : Session σ) :
    Course srv s [] (s.comeToRest srv) :=
  comeToRest_keeps (motive := Course srv s []) (fun t c => c.quiet (alike_clearTurns t))
    (fun t c => c.quiet (alike_flush t)) (fun _ handle c => c.task handle) .refl

theorem course_answerAllKept (srv : Server σ) (s : Session σ) (answers : List (Nat × Answer)) :
    Course srv s [] (s.answerAllKept srv answers).1 := by
  induction answers generalizing s with
  | nil => exact .refl
  | cons p rest ih => exact (Course.refl.answer p.1 p.2).transIdle (ih _)

end Fuse.Session
