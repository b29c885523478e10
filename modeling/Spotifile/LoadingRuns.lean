import Spotifile.Loading
import Spotifile.Lib.Guard
import Mathlib.Order.Basic
import Mathlib.Order.Nat

/-!
# What the lists of libspotify say, and who waits for them

Two results about all runs in which any number of threads read lists while the spotify thread
processes events.

A list is read item by item, but with the mutex locked from the test on that its object has loaded.
`get_list_returns`: what is returned is the list as it was at one moment between the call and the
return, and NULL is returned only for the object NULL, for an object that has an error, and after
`SPFS_CB_TIMEOUT_S` seconds.

A thread tests whether its object has loaded before it gives the mutex up to wait. `loaded_awake`:
if libspotify tells of what it loads before `sp_session_process_events` returns, no thread has to
wait for a timeout while its object has loaded.
-/

namespace Spotifile.Loading

open Lib

/-! ## What is shown -/

/-- A call is over for a reason: with the list of an object that had loaded, without an object, with
an object that had an error, or after the time for the wait, at whose begin the object had not
loaded. -/
def Return.Right (r : Return) : Prop :=
  match r.object, r.array with
  | some x, some array => ∃ d ∈ r.since,
    d.is_loaded x = true ∧ d.sp_error x = 0 ∧ d.items r.list x = array
  | some x, none => (∃ d ∈ r.since, d.is_loaded x = true ∧ d.sp_error x ≠ 0) ∨
    (r.called + SPFS_CB_TIMEOUT_S * G_TIME_SPAN_SECOND ≤ r.returned ∧
      ∃ d ∈ r.since, d.is_loaded x = false)
  | none, array => array = none

/-- What was right stays right while the call goes on. -/
lemma Return.Right.mono {list : SpList} {object : Option SpObject} {array : Option (List ℕ)}
    {since since' : List SpData} {called returned returned' : ℕ}
    (h : Return.Right ⟨list, object, array, since, called, returned⟩) (hsince : since ⊆ since')
    (hreturned : returned ≤ returned') :
    Return.Right ⟨list, object, array, since', called, returned'⟩ := by
  rcases object with _ | x
  · exact h
  · rcases array with _ | array
    · rcases h with ⟨d, hd, herror⟩ | ⟨htime, d, hd, hload⟩
      · exact .inl ⟨d, hsince hd, herror⟩
      · exact .inr ⟨htime.trans hreturned, d, hsince hd, hload⟩
    · obtain ⟨d, hd, hright⟩ := h
      exact ⟨d, hsince hd, hright⟩

/-! ## The terms -/

/-- What holds between any two steps. `told` says whether libspotify tells of what it loads. -/
structure LoadState.Inv (told : Prop) (s : LoadState) : Prop where
  now : ∀ t, s.data ∈ s.since t
  park : ∀ t x, s.phase t = .park x → s.owner = some t ∧ s.data.is_loaded x = false
  parked : ∀ t x, s.phase t = .parked x false → s.data.is_loaded x = false ∨ s.untold = true
  untold : told → s.untold = true → s.owner = some .spotify
  called : ∀ t, s.called t ≤ s.clock
  returns : ∀ r ∈ s.returns, r.Right

/-- What thread `t` relies on a step of another thread to do. -/
structure Rely (t : Thread) (s s' : LoadState) : Prop where
  holds : s.owner = some t → s'.owner = some t ∧ s'.data = s.data ∧ s'.untold = s.untold
  lets : s.owner ≠ some t → s'.owner ≠ some t
  phase : s'.phase t = s.phase t ∨ s'.phase t = (s.phase t).wake
  clock : s.clock ≤ s'.clock
  since : s.since t ⊆ s'.since t
  called : s'.called t = s.called t

/-- A thread that is not in a call. -/
def Idle (t : Thread) (s : LoadState) : Prop := s.phase t = .test ∧ s.owner ≠ some t

/-- The terms on which the threads share the state. -/
def load_discipline (told : Prop) : Discipline LoadInstr LoadState Thread LoadOp where
  inv := LoadState.Inv told
  rely := Rely
  idle := Idle
  ok _ _ := True
  okStart _ op _ := told → ∀ events, op = .round events → Told events

/-- The state when time has passed. -/
def LoadState.pass (s : LoadState) (n : ℕ) : LoadState := { s with clock := s.clock + n }

section Rules

variable {told : Prop} {t : Thread} {s s' : LoadState}

/-- The invariant holds on as time passes. -/
lemma LoadState.Inv.pass (h : s.Inv told) (n : ℕ) : (s.pass n).Inv told :=
  ⟨h.now, h.park, h.parked, h.untold, fun t => (h.called t).trans (Nat.le_add_right _ _), h.returns⟩

/-- A step that does nothing may be relied on. -/
lemma Rely.refl (t : Thread) (s : LoadState) : Rely t s s :=
  ⟨fun h => ⟨h, rfl, rfl⟩, id, .inl rfl, le_rfl, List.Subset.refl _, rfl⟩

/-- So may time. -/
lemma Rely.pass (t : Thread) (s : LoadState) (n : ℕ) : Rely t s (s.pass n) :=
  ⟨fun h => ⟨h, rfl, rfl⟩, id, .inl rfl, Nat.le_add_right _ _, List.Subset.refl _, rfl⟩

/-- A second wake-up changes nothing. -/
lemma Phase.wake_wake (phase : Phase) : phase.wake.wake = phase.wake := by
  rcases phase with _ | x | ⟨x, woken⟩ <;> rfl

/-- Two steps of others are like one. -/
lemma Rely.trans {s'' : LoadState} (h : Rely t s s') (h' : Rely t s' s'') : Rely t s s'' where
  holds howner := by
    obtain ⟨howner', hdata, huntold⟩ := h.holds howner
    obtain ⟨howner'', hdata', huntold'⟩ := h'.holds howner'
    exact ⟨howner'', hdata'.trans hdata, huntold'.trans huntold⟩
  lets howner := h'.lets (h.lets howner)
  phase := by
    rcases h.phase with heq | heq <;> rcases h'.phase with heq' | heq' <;> rw [heq', heq]
    · exact .inl rfl
    · exact .inr rfl
    · exact .inr rfl
    · exact .inr (Phase.wake_wake _)
  clock := h.clock.trans h'.clock
  since := List.Subset.trans h.since h'.since
  called := h'.called.trans h.called

/-- The rule for an instruction of a thread: what it does after time has passed. -/
lemma triple_of {γ : Type} {i : LoadInstr γ} {P : LoadState → Prop} {Q : γ → LoadState → Prop}
    (hstable : (load_discipline told).Stable t P)
    (hstep : ∀ s o r s', s.Inv told → P s → exec_at i o s = some (r, s') →
      s'.Inv told ∧ (∀ u, u ≠ t → Rely u s s') ∧ (r = none → P s') ∧
      ∀ v, r = some v → Q v s') :
    Prog.Triple load_system (load_discipline told) t P (.of i) Q := by
  refine .of hstable ?_
  intro s o r s' hinv hP _ he
  have hpass : P (s.pass o.elapsed) := hstable s _ (hinv.pass _) (Rely.pass t s _) hP
  obtain ⟨hinv', hrely, hnone, hsome⟩ := hstep _ o r s' (hinv.pass _) hpass he
  exact ⟨hinv', fun u hu => (Rely.pass u s _).trans (hrely u hu), hnone, hsome⟩

/-- The rule for an instruction that only reads. -/
lemma triple_read {γ : Type} {i : LoadInstr γ} {P : LoadState → Prop} {f : LoadState → γ}
    (hexec : ∀ o s, exec_at i o s = some (some (f s), s))
    (hstable : (load_discipline told).Stable t P) :
    Prog.Triple load_system (load_discipline told) t P (.of i) fun v s => P s ∧ v = f s := by
  refine triple_of hstable ?_
  intro s o r s' hinv hP he
  rw [hexec] at he
  obtain ⟨rfl, rfl⟩ := Prod.mk.inj (Option.some.inj he)
  refine ⟨hinv, fun u _ => Rely.refl u s, ?_, ?_⟩
  · intro hnone
    cases hnone
  · rintro v hv
    exact ⟨hP, (Option.some.inj hv).symm⟩

/-- The rule for an instruction that takes one step, where it is not blocked. -/
lemma triple_act {i : LoadInstr Unit} {P Q : LoadState → Prop} (free : LoadState → Prop)
    (act : LoadState → LoadState)
    (hexec : ∀ o s r s', exec_at i o s = some (r, s') → r = some () ∧ s' = act s ∧ free s)
    (hstable : (load_discipline told).Stable t P)
    (hact : ∀ s, s.Inv told → P s → free s →
      (act s).Inv told ∧ (∀ u, u ≠ t → Rely u s (act s)) ∧ Q (act s)) :
    Prog.Triple load_system (load_discipline told) t P (.of i) fun _ => Q := by
  refine triple_of hstable ?_
  intro s o r s' hinv hP he
  obtain ⟨rfl, rfl, hfree⟩ := hexec o s r s' he
  obtain ⟨hinv', hrely, hQ⟩ := hact s hinv hP hfree
  refine ⟨hinv', hrely, ?_, fun _ _ => hQ⟩
  intro hnone
  cases hnone

end Rules

/-! ## What the instructions do -/

/-- A thread that holds the mutex and is not in a wait. -/
structure Inside (t : Thread) (s : LoadState) : Prop where
  phase : s.phase t = .test
  owner : s.owner = some t
  now : s.data ∈ s.since t

/-- What the thread may return at this moment. -/
def Answered (t : Thread) (list : SpList) (x : Option SpObject) (array : Option (List ℕ))
    (s : LoadState) : Prop :=
  Return.Right ⟨list, x, array, s.since t, s.called t, s.clock⟩

/-- At some moment of the call the object had not loaded. -/
def Unloaded (t : Thread) (x : SpObject) (s : LoadState) : Prop :=
  ∃ d ∈ s.since t, d.is_loaded x = false

/-- In the loop of `wait_on_..`. -/
def Waiting (t : Thread) (x : SpObject) (end_time : ℕ) (s : LoadState) : Prop :=
  s.called t + SPFS_CB_TIMEOUT_S * G_TIME_SPAN_SECOND ≤ end_time ∧
    (Inside t s ∨ (Unloaded t x s ∧ s.phase t = .park x ∧ s.owner = some t) ∨
      (Unloaded t x s ∧ (∃ woken, s.phase t = .parked x woken) ∧ s.owner ≠ some t))

section Stable

variable {told : Prop} {t : Thread} {s s' : LoadState} {x : SpObject}

/-- A thread that is not in a call stays so. -/
lemma Idle.rely (h : Idle t s) (hrely : Rely t s s') : Idle t s' := by
  refine ⟨?_, hrely.lets h.2⟩
  rcases hrely.phase with heq | heq
  · rw [heq, h.1]
  · rw [heq, h.1]
    rfl

/-- A thread that holds the mutex goes on to hold it. -/
lemma Inside.rely (h : Inside t s) (hrely : Rely t s s') : Inside t s' := by
  obtain ⟨howner, hdata, -⟩ := hrely.holds h.owner
  refine ⟨?_, howner, ?_⟩
  · rcases hrely.phase with heq | heq
    · rw [heq, h.phase]
    · rw [heq, h.phase]
      rfl
  · rw [hdata]
    exact hrely.since h.now

/-- An answer stays one. -/
lemma Answered.rely {list : SpList} {object : Option SpObject} {array : Option (List ℕ)}
    (h : Answered t list object array s) (hrely : Rely t s s') :
    Answered t list object array s' := by
  unfold Answered
  rw [hrely.called]
  exact Return.Right.mono h hrely.since hrely.clock

/-- What had not loaded at a moment of the call had not. -/
lemma Unloaded.rely (h : Unloaded t x s) (hrely : Rely t s s') : Unloaded t x s' := by
  obtain ⟨d, hd, hload⟩ := h
  exact ⟨d, hrely.since hd, hload⟩

/-- A thread that waits goes on to. -/
lemma Waiting.rely {end_time : ℕ} (h : Waiting t x end_time s) (hrely : Rely t s s') :
    Waiting t x end_time s' := by
  obtain ⟨htime, hwhere⟩ := h
  refine ⟨by rwa [hrely.called], ?_⟩
  rcases hwhere with hinside | ⟨hunloaded, hphase, howner⟩ | ⟨hunloaded, ⟨woken, hphase⟩, howner⟩
  · exact .inl (hinside.rely hrely)
  · refine .inr (.inl ⟨hunloaded.rely hrely, ?_, (hrely.holds howner).1⟩)
    rcases hrely.phase with heq | heq
    · rw [heq, hphase]
    · rw [heq, hphase]
      rfl
  · refine .inr (.inr ⟨hunloaded.rely hrely, ?_, hrely.lets howner⟩)
    rcases hrely.phase with heq | heq
    · exact ⟨woken, heq.trans hphase⟩
    · rw [heq, hphase]
      exact ⟨true, rfl⟩

/-- No other thread begins a call of this one. -/
lemma idle_stable : (load_discipline told).Stable t (Idle t) :=
  fun _ _ _ hrely h => h.rely hrely

/-- What a thread knows of the data while it holds the mutex. -/
lemma inside_stable (R : SpData → Prop) :
    (load_discipline told).Stable t fun s => Inside t s ∧ R s.data := by
  rintro s s' - hrely ⟨hinside, hR⟩
  refine ⟨hinside.rely hrely, ?_⟩
  rw [(hrely.holds hinside.owner).2.1]
  exact hR

end Stable

section Instructions

variable {told : Prop} {t : Thread} {x : SpObject}

/-- The start of a call. -/
lemma triple_called : Prog.Triple load_system (load_discipline told) t (Idle t)
    (.of (.called t)) fun _ => Idle t := by
  refine triple_act (fun _ => True) (fun s => { s with
      since := Function.update s.since t [s.data]
      called := Function.update s.called t s.clock }) ?_ idle_stable ?_
  · intro o s r s' he
    obtain ⟨rfl, rfl⟩ := Prod.mk.inj (Option.some.inj he)
    exact ⟨rfl, rfl, trivial⟩
  · intro s hinv hidle _
    refine ⟨⟨fun u => ?_, hinv.park, hinv.parked, hinv.untold, fun u => ?_, hinv.returns⟩,
      fun u hu => ⟨fun h => ⟨h, rfl, rfl⟩, id, .inl rfl, le_rfl, ?_, ?_⟩, hidle⟩
    · by_cases hu : u = t
      · subst hu
        simp
      · simpa [Function.update_of_ne hu] using hinv.now u
    · by_cases hu : u = t
      · subst hu
        simp
      · simpa [Function.update_of_ne hu] using hinv.called u
    · simp [Function.update_of_ne hu]
    · simp [Function.update_of_ne hu]

/-- The mutex is locked. -/
lemma triple_lock : Prog.Triple load_system (load_discipline told) t (Idle t) (.of (.lock t))
    fun _ s => Inside t s ∧ (told → s.untold = false) := by
  refine triple_act (fun s => s.owner = none) (fun s => { s with owner := some t }) ?_
    idle_stable ?_
  · intro o s r s' he
    simp only [exec_at] at he
    split at he
    · next howner =>
      obtain ⟨rfl, rfl⟩ := Prod.mk.inj (Option.some.inj he)
      exact ⟨rfl, rfl, howner⟩
    · cases he
  · intro s hinv hidle howner
    have huntold : told → s.untold = false := by
      intro htold
      rcases huntold : s.untold
      · rfl
      · have h := hinv.untold htold huntold
        rw [howner] at h
        cases h
    refine ⟨⟨hinv.now, fun u y hpark => ?_, hinv.parked, fun htold h => ?_, hinv.called,
      hinv.returns⟩, fun u hu => ⟨fun h => ?_, fun _ h => ?_, .inl rfl, le_rfl,
      List.Subset.refl _, rfl⟩, ⟨hidle.1, rfl, hinv.now t⟩, huntold⟩
    · have h := (hinv.park u y hpark).1
      rw [howner] at h
      cases h
    · rw [huntold htold] at h
      cases h
    · rw [howner] at h
      cases h
    · exact hu (Option.some.inj h).symm

/-- The mutex is given back, by a thread that has told of what it has loaded. -/
lemma triple_unlock {P Q : LoadState → Prop} (hstable : (load_discipline told).Stable t P)
    (hinside : ∀ s, P s → Inside t s)
    (huntold : ∀ s, s.Inv told → P s → told → s.untold = false)
    (hQ : ∀ s, P s → Q { s with owner := none }) :
    Prog.Triple load_system (load_discipline told) t P (.of (.unlock t)) fun _ => Q := by
  refine triple_act (fun _ => True) (fun s => { s with owner := none }) ?_ hstable ?_
  · intro o s r s' he
    obtain ⟨rfl, rfl⟩ := Prod.mk.inj (Option.some.inj he)
    exact ⟨rfl, rfl, trivial⟩
  · intro s hinv hP _
    obtain ⟨hphase, howner, -⟩ := hinside s hP
    refine ⟨⟨hinv.now, fun u y hpark => ?_, hinv.parked, fun htold h => ?_, hinv.called,
      hinv.returns⟩, fun u hu => ⟨fun h => ?_, fun _ h => ?_, .inl rfl, le_rfl,
      List.Subset.refl _, rfl⟩, hQ s hP⟩
    · have h := (hinv.park u y hpark).1
      rw [howner] at h
      obtain rfl := Option.some.inj h
      rw [hphase] at hpark
      cases hpark
    · rw [huntold s hinv hP htold] at h
      cases h
    · rw [howner] at h
      exact absurd (Option.some.inj h).symm hu
    · cases h

/-- A right answer is returned. -/
lemma triple_returned {list : SpList} {object : Option SpObject} {array : Option (List ℕ)} :
    Prog.Triple load_system (load_discipline told) t
      (fun s => Idle t s ∧ Answered t list object array s) (.of (.returned t list object array))
      fun _ => Idle t := by
  refine triple_act (fun _ => True) (fun s => { s with
      returns := ⟨list, object, array, s.since t, s.called t, s.clock⟩ :: s.returns }) ?_
    (fun _ _ _ hrely h => ⟨h.1.rely hrely, h.2.rely hrely⟩) ?_
  · intro o s r s' he
    obtain ⟨rfl, rfl⟩ := Prod.mk.inj (Option.some.inj he)
    exact ⟨rfl, rfl, trivial⟩
  · rintro s hinv ⟨hidle, hanswered⟩ -
    refine ⟨⟨hinv.now, hinv.park, hinv.parked, hinv.untold, hinv.called, ?_⟩,
      fun u _ => ⟨fun h => ⟨h, rfl, rfl⟩, id, .inl rfl, le_rfl, List.Subset.refl _, rfl⟩, hidle⟩
    intro r hr
    rcases List.mem_cons.mp hr with rfl | hr
    · exact hanswered
    · exact hinv.returns r hr

/-- The time is taken until which a thread waits. -/
lemma triple_end_time : Prog.Triple load_system (load_discipline told) t (Inside t)
    (.of .end_time) (Waiting t x) := by
  refine triple_of (fun _ _ _ hrely h => h.rely hrely) ?_
  intro s o r s' hinv hinside he
  obtain ⟨rfl, rfl⟩ := Prod.mk.inj (Option.some.inj he)
  refine ⟨hinv, fun u _ => Rely.refl u s, ?_, ?_⟩
  · intro hnone
    cases hnone
  · rintro v hv
    obtain rfl := Option.some.inj hv
    exact ⟨Nat.add_le_add_right (hinv.called t) _, .inl hinside⟩

/-- The other threads rely on a step of the loop to move the phase of its thread, and the mutex
only where that thread takes it or gives it up. -/
lemma rely_wait {s : LoadState} {u : Thread} (hu : u ≠ t) {owner : Option Thread} {phase : Phase}
    (howner : s.owner = none ∨ s.owner = some t) (howner' : owner = none ∨ owner = some t) :
    Rely u s { s with owner := owner, phase := Function.update s.phase t phase } := by
  have hne : ∀ {o : Option Thread}, o = none ∨ o = some t → o ≠ some u := by
    rintro o (rfl | rfl) h
    · cases h
    · exact hu (Option.some.inj h).symm
  refine ⟨fun h => absurd h (hne howner), fun _ => hne howner', .inl ?_, le_rfl,
    List.Subset.refl _, rfl⟩
  exact Function.update_of_ne hu _ _

/-- The invariant after a step of the loop. -/
lemma inv_wait {s : LoadState} (hinv : s.Inv told) {owner : Option Thread} {phase : Phase}
    (howner : s.owner = none ∨ (s.owner = some t ∧ (told → s.untold = false)))
    (hpark : ∀ y, phase = .park y → owner = some t ∧ s.data.is_loaded y = false)
    (hparked : ∀ y, phase = .parked y false → s.data.is_loaded y = false) :
    LoadState.Inv told { s with owner := owner, phase := Function.update s.phase t phase } := by
  refine ⟨hinv.now, fun u y h => ?_, fun u y h => ?_, fun htold h => ?_, hinv.called,
    hinv.returns⟩
  · by_cases hu : u = t
    · subst hu
      exact hpark y (by simpa using h)
    · have h : s.phase u = .park y := by simpa [Function.update_of_ne hu] using h
      have howner' := (hinv.park u y h).1
      rcases howner with howner | ⟨howner, -⟩
      · rw [howner] at howner'
        cases howner'
      · rw [howner] at howner'
        exact absurd (Option.some.inj howner').symm hu
  · by_cases hu : u = t
    · subst hu
      exact .inl (hparked y (by simpa using h))
    · exact hinv.parked u y (by simpa [Function.update_of_ne hu] using h)
  · have h : s.untold = true := h
    rcases howner with howner | ⟨-, huntold⟩
    · have howner' := hinv.untold htold h
      rw [howner] at howner'
      cases howner'
    · rw [huntold htold] at h
      cases h

section WaitStep

variable {end_time : ℕ} {o : Chance} {s s' : LoadState} {r : Option Bool}

/-- The test of the loop ends it, or a wait begins. -/
lemma wait_step_test (hphase : s.phase t = .test)
    (he : wait_step t x end_time o s = some (r, s')) :
    (s.data.is_loaded x = true ∧ r = some true ∧ s' = s) ∨
    (s.data.is_loaded x = false ∧ r = none ∧
      s' = { s with phase := Function.update s.phase t (.park x) }) := by
  simp only [wait_step, hphase] at he
  split at he
  · next hload =>
    obtain ⟨rfl, rfl⟩ := Prod.mk.inj (Option.some.inj he)
    exact .inl ⟨hload, rfl, rfl⟩
  · next hload =>
    obtain ⟨rfl, rfl⟩ := Prod.mk.inj (Option.some.inj he)
    exact .inr ⟨by simpa using hload, rfl, rfl⟩

/-- A wait gives the mutex up. -/
lemma wait_step_park {y : SpObject} (hphase : s.phase t = .park y)
    (he : wait_step t x end_time o s = some (r, s')) :
    r = none ∧ s' = { s with
      owner := none, phase := Function.update s.phase t (.parked y false) } := by
  simp only [wait_step, hphase] at he
  obtain ⟨rfl, rfl⟩ := Prod.mk.inj (Option.some.inj he)
  exact ⟨rfl, rfl⟩

/-- A wait ends with the mutex, and the loop ends with it if the time has passed. -/
lemma wait_step_parked {y : SpObject} {woken : Bool} (hphase : s.phase t = .parked y woken)
    (he : wait_step t x end_time o s = some (r, s')) :
    s.owner = none ∧
      s' = { s with owner := some t, phase := Function.update s.phase t .test } ∧
      (r = none ∨ (r = some false ∧ end_time ≤ s.clock)) := by
  simp only [wait_step, hphase] at he
  split at he
  · next hfree =>
    split at he
    · next hout =>
      obtain ⟨rfl, rfl⟩ := Prod.mk.inj (Option.some.inj he)
      exact ⟨hfree, rfl, .inr ⟨rfl, hout.1⟩⟩
    · split at he
      · obtain ⟨rfl, rfl⟩ := Prod.mk.inj (Option.some.inj he)
        exact ⟨hfree, rfl, .inl rfl⟩
      · cases he
  · cases he

end WaitStep

/-- The loop ends with the mutex locked: with an object that has loaded, or after the time. -/
lemma triple_wait_loaded (ht : t ≠ .spotify) {end_time : ℕ} :
    Prog.Triple load_system (load_discipline told) t (Waiting t x end_time)
      (.of (.wait_loaded t x end_time)) fun loaded s =>
        Inside t s ∧ (loaded = true → s.data.is_loaded x = true) ∧
          (loaded = false → ∀ list, Answered t list (some x) none s) := by
  refine triple_of (fun _ _ _ hrely h => h.rely hrely) ?_
  rintro s o r s' hinv ⟨htime, hwhere⟩ he
  have htold : s.owner = some t → told → s.untold = false := by
    intro howner htold
    rcases huntold : s.untold
    · rfl
    · exact absurd (Option.some.inj ((hinv.untold htold huntold).symm.trans howner)).symm ht
  rcases hwhere with ⟨hphase, howner, hnow⟩ | ⟨hunloaded, hphase, howner⟩ |
    ⟨hunloaded, ⟨woken, hphase⟩, howner⟩
  · rcases wait_step_test hphase he with ⟨hload, rfl, rfl⟩ | ⟨hload, rfl, rfl⟩
    · refine ⟨hinv, fun u _ => Rely.refl u s', fun h => ?_, fun v hv => ?_⟩
      · cases h
      · obtain rfl := Option.some.inj hv
        refine ⟨⟨hphase, howner, hnow⟩, fun _ => hload, fun h => ?_⟩
        cases h
    · refine ⟨?_, fun u hu => ?_, fun _ => ⟨htime, .inr (.inl ⟨⟨s.data, hnow, hload⟩, ?_,
        howner⟩)⟩, fun v hv => ?_⟩
      · refine inv_wait hinv (.inr ⟨howner, htold howner⟩) ?_ ?_
        · rintro y ⟨⟩
          exact ⟨howner, hload⟩
        · rintro y ⟨⟩
      · exact rely_wait hu (.inr howner) (.inr howner)
      · simp
      · cases hv
  · obtain ⟨rfl, rfl⟩ := wait_step_park hphase he
    have hload := (hinv.park t x hphase).2
    refine ⟨?_, fun u hu => ?_, fun _ => ⟨htime, .inr (.inr ⟨hunloaded, ⟨false, ?_⟩, ?_⟩)⟩,
      fun v hv => ?_⟩
    · refine inv_wait hinv (.inr ⟨howner, htold howner⟩) ?_ ?_
      · rintro y ⟨⟩
      · rintro y ⟨⟩
        exact hload
    · exact rely_wait hu (.inr howner) (.inl rfl)
    · simp
    · intro h
      cases h
    · cases hv
  · obtain ⟨hfree, rfl, hr⟩ := wait_step_parked hphase he
    have hinside : Inside t
        { s with owner := some t, phase := Function.update s.phase t .test } :=
      ⟨by simp, rfl, hinv.now t⟩
    refine ⟨?_, fun u hu => ?_, fun _ => ⟨htime, .inl hinside⟩, fun v hv => ?_⟩
    · refine inv_wait hinv (.inl hfree) ?_ ?_
      · rintro y ⟨⟩
      · rintro y ⟨⟩
    · exact rely_wait hu (.inl hfree) (.inr rfl)
    · rcases hr with rfl | ⟨rfl, hout⟩
      · cases hv
      · obtain rfl := Option.some.inj hv
        refine ⟨hinside, fun h => ?_, fun _ list => .inr ⟨htime.trans hout, hunloaded⟩⟩
        cases h

end Instructions

/-! ## The functions that read a list -/

section Functions

variable {told : Prop} {t : Thread} {x : SpObject}

variable (told t) in
/-- Nothing is changed by what only reads data. -/
lemma triple_data {γ : Type} (i : LoadInstr γ) (f : SpData → γ)
    (hexec : ∀ o s, exec_at i o s = some (some (f s.data), s)) (R : SpData → Prop) :
    Prog.Triple load_system (load_discipline told) t (fun s => Inside t s ∧ R s.data) (.of i)
      fun v s => Inside t s ∧ R s.data ∧ v = f s.data := by
  intro s hs
  exact (triple_read hexec (inside_stable R) s hs).mono fun _ _ h => ⟨h.1.1, h.1.2, h.2⟩

/-- A wait ends with the object loaded and without an error, or with a reason for NULL. -/
lemma triple_wait_on (ht : t ≠ .spotify) :
    Prog.Triple load_system (load_discipline told) t (Inside t) (wait_on t x) fun loaded s =>
      Inside t s ∧ (loaded = true → s.data.is_loaded x = true ∧ s.data.sp_error x = 0) ∧
        (loaded = false → ∀ list, Answered t list (some x) none s) := by
  refine .bind triple_end_time fun end_time => .bind (triple_wait_loaded ht) fun loaded => ?_
  rcases loaded with _ | _
  · refine .ret ?_
    rintro s ⟨hinside, -, hfailed⟩
    refine ⟨hinside, fun h => ?_, hfailed⟩
    cases h
  · have herror := triple_data told t (.error x) (fun d => d.sp_error x) (fun _ _ => rfl)
      fun d => d.is_loaded x = true
    refine .bind (fun s hs => herror s ⟨hs.1, hs.2.1 rfl⟩) fun err => .ret ?_
    rintro s ⟨hinside, hload, rfl⟩
    refine ⟨hinside, fun h => ⟨hload, of_decide_eq_true h⟩, fun h list => ?_⟩
    exact .inl ⟨s.data, hinside.now, hload, of_decide_eq_false h⟩

variable (told t x) in
/-- What is left to insert after the items of `array`. -/
lemma triple_insert_vals (list : SpList) (R : SpData → Prop) (items : List ℕ) (n : ℕ)
    (array : List ℕ) (hn : array.length + n = items.length)
    (harray : array = items.take array.length) :
    Prog.Triple load_system (load_discipline told) t
      (fun s => Inside t s ∧ R s.data ∧ s.data.items list x = items)
      (insert_vals list x n array.length array)
      fun result s => Inside t s ∧ R s.data ∧ s.data.items list x = result := by
  induction n generalizing array with
  | zero =>
    refine .ret ?_
    rintro s ⟨hinside, hR, hitems⟩
    refine ⟨hinside, hR, ?_⟩
    rw [harray, List.take_of_length_le (by omega), hitems]
  | succ n ih =>
    have hitem := triple_data told t (.item list x array.length)
      (fun d => (d.items list x).getD array.length 0) (fun _ _ => rfl)
      fun d => R d ∧ d.items list x = items
    refine .bind hitem fun item => ?_
    intro s hs
    obtain ⟨hinside, ⟨hR, hitems⟩, rfl⟩ := hs
    rw [hitems, List.insertIdx_length_self]
    have hlength : (array ++ [items.getD array.length 0]).length = array.length + 1 := by simp
    rw [← hlength]
    refine ih _ (by rw [hlength]; omega) ?_ s ⟨hinside, hR, hitems⟩
    rw [hlength, List.take_add_one, ← harray]
    simp [List.getD, List.getElem?_eq_getElem (show array.length < items.length by omega)]

/-- A list is read while the mutex is held. -/
lemma triple_read_list (ht : t ≠ .spotify) (list : SpList) (object : Option SpObject) :
    Prog.Triple load_system (load_discipline told) t (Inside t) (read_list t list object)
      fun array s => Inside t s ∧ Answered t list object array s := by
  rcases object with _ | x
  · exact .ret fun s hinside => ⟨hinside, rfl⟩
  · refine .bind (triple_wait_on ht) fun loaded => ?_
    rcases loaded with _ | _
    · exact .ret fun s hs => ⟨hs.1, hs.2.2 rfl list⟩
    · rintro s ⟨hinside, hloaded, -⟩
      obtain ⟨hload, herror⟩ := hloaded rfl
      have hnum := triple_data told t (.num list x) (fun d => (d.items list x).length)
        (fun _ _ => rfl) fun d => d.is_loaded x = true ∧ d.sp_error x = 0
      refine (hnum s ⟨hinside, hload, herror⟩).bind fun n s => ?_
      rintro ⟨hinside, hready, rfl⟩
      have hinsert := triple_insert_vals told t x list
        (fun d => d.is_loaded x = true ∧ d.sp_error x = 0) (s.data.items list x) _ []
        (Nat.zero_add _) rfl
      refine (hinsert s ⟨hinside, hready, rfl⟩).bind fun array s => ?_
      rintro ⟨hinside, ⟨hload, herror⟩, hitems⟩
      exact ⟨hinside, s.data, hinside.now, hload, herror, hitems⟩

/-- A thread of FUSE has told of everything: it loads nothing. -/
lemma untold_of_inside (ht : t ≠ .spotify) {s : LoadState} (hinv : s.Inv told)
    (hinside : Inside t s) (htold : told) : s.untold = false := by
  rcases huntold : s.untold
  · rfl
  · exact absurd (Option.some.inj ((hinv.untold htold huntold).symm.trans hinside.owner)).symm ht

/-- The mutex is locked, the object found and its list read. -/
lemma triple_get_list (ht : t ≠ .spotify) (list : SpList) {find : LoadProg (Option SpObject)}
    (hfind : Prog.Triple load_system (load_discipline told) t (Inside t) find
      fun _ => Inside t) :
    Prog.Triple load_system (load_discipline told) t (Idle t) (get_list t list find)
      fun _ => Idle t := by
  refine .bind triple_called fun _ => .bind triple_lock fun _ s hs => ?_
  refine (hfind s hs.1).bind fun object => ?_
  refine Prog.Triple.bind (triple_read_list ht list object) fun array => ?_
  refine .bind (triple_unlock ?_ (fun s hs => hs.1) ?_ ?_) fun _ => triple_returned
  · rintro s s' - hrely ⟨hinside, hanswered⟩
    exact ⟨hinside.rely hrely, hanswered.rely hrely⟩
  · exact fun s hinv hs => untold_of_inside ht hinv hs.1
  · rintro s ⟨hinside, hanswered⟩
    refine ⟨⟨hinside.phase, fun h => ?_⟩, hanswered⟩
    cases h

end Functions

/-! ## The spotify thread -/

section Events

variable {told : Prop} {t : Thread}

/-- Data is loaded by the thread that holds the mutex. -/
lemma triple_load (d : SpData) :
    Prog.Triple load_system (load_discipline told) .spotify (Inside .spotify) (.of (.load d))
      fun _ => Inside .spotify := by
  refine triple_act (fun _ => True) (fun s => { s with
      data := d
      untold := true
      since := fun u => d :: s.since u }) ?_ (fun _ _ _ hrely h => h.rely hrely) ?_
  · intro o s r s' he
    obtain ⟨rfl, rfl⟩ := Prod.mk.inj (Option.some.inj he)
    exact ⟨rfl, rfl, trivial⟩
  · intro s hinv hinside _
    refine ⟨⟨fun u => List.mem_cons_self, fun u y hpark => ?_, fun u y _ => .inr rfl,
      fun _ _ => hinside.owner, hinv.called, hinv.returns⟩, fun u hu => ⟨fun h => ?_, id,
      .inl rfl, le_rfl, List.subset_cons_self _ _, rfl⟩, hinside.phase, hinside.owner,
      List.mem_cons_self⟩
    · have howner := (hinv.park u y hpark).1
      rw [hinside.owner] at howner
      obtain rfl := Option.some.inj howner
      rw [hinside.phase] at hpark
      cases hpark
    · rw [hinside.owner] at h
      exact absurd (Option.some.inj h).symm hu

/-- All threads that wait are woken. -/
lemma triple_broadcast :
    Prog.Triple load_system (load_discipline told) .spotify (Inside .spotify) (.of .broadcast)
      fun _ s => Inside .spotify s ∧ s.untold = false := by
  refine triple_act (fun _ => True) (fun s => { s with
      phase := fun u => (s.phase u).wake
      untold := false }) ?_ (fun _ _ _ hrely h => h.rely hrely) ?_
  · intro o s r s' he
    obtain ⟨rfl, rfl⟩ := Prod.mk.inj (Option.some.inj he)
    exact ⟨rfl, rfl, trivial⟩
  · intro s hinv hinside _
    have hwake : ∀ u y, (s.phase u).wake = .park y → s.phase u = .park y := by
      intro u y h
      rcases hphase : s.phase u with _ | z | ⟨z, woken⟩ <;> rw [hphase] at h
      · cases h
      · exact h
      · cases h
    refine ⟨⟨hinv.now, fun u y hpark => hinv.park u y (hwake u y hpark), fun u y h => ?_,
      fun _ h => ?_, hinv.called, hinv.returns⟩, fun u hu => ⟨fun h => ?_, id, .inr rfl, le_rfl,
      List.Subset.refl _, rfl⟩, ⟨?_, hinside.owner, hinside.now⟩, rfl⟩
    · have h : (s.phase u).wake = .parked y false := h
      rcases hphase : s.phase u with _ | z | ⟨z, woken⟩ <;> rw [hphase] at h <;> cases h
    · cases h
    · rw [hinside.owner] at h
      exact absurd (Option.some.inj h).symm hu
    · show (s.phase .spotify).wake = .test
      rw [hinside.phase]
      rfl

/-- What is told of is told of later as well. -/
lemma Told.tail {e : Event} {events : List Event} (h : Told (e :: events)) : Told events :=
  fun l d l' hsplit => h (e :: l) d l' (congrArg (e :: ·) hsplit)

/-- In a call of `sp_session_process_events`. -/
lemma triple_events {events : List Event} :
    Prog.Triple load_system (load_discipline told) .spotify
      (fun s => Inside .spotify s ∧
        (told → Told events ∧ (s.untold = true → Event.tell ∈ events)))
      (Prog.forEach events Event.prog) fun _ s =>
        Inside .spotify s ∧ (told → s.untold = false) := by
  induction events with
  | nil =>
    refine .ret ?_
    rintro s ⟨hinside, htelling⟩
    refine ⟨hinside, fun htold => ?_⟩
    simpa using (htelling htold).2
  | cons e events ih =>
    rw [Prog.forEach_cons]
    rintro s ⟨hinside, htelling⟩
    rcases e with d | _
    · refine (triple_load d s hinside).bind fun _ s' hinside' => ih s' ⟨hinside', fun htold => ?_⟩
      have htold := (htelling htold).1
      exact ⟨htold.tail, fun _ => htold [] d events rfl⟩
    · refine (triple_broadcast s hinside).bind fun _ s' hs' => ih s' ⟨hs'.1, fun htold => ?_⟩
      refine ⟨(htelling htold).1.tail, fun h => ?_⟩
      rw [hs'.2] at h
      cases h

/-- The spotify thread processes events with the mutex locked. -/
lemma triple_process_events {events : List Event} (htold : told → Told events) :
    Prog.Triple load_system (load_discipline told) .spotify (Idle .spotify)
      (process_events .spotify events) fun _ => Idle .spotify := by
  refine .bind triple_lock fun _ s hs => ?_
  have hbefore : told → Told events ∧ (s.untold = true → Event.tell ∈ events) := by
    intro h
    refine ⟨htold h, fun huntold => ?_⟩
    rw [hs.2 h] at huntold
    cases huntold
  refine (triple_events s ⟨hs.1, hbefore⟩).bind fun _ => ?_
  refine triple_unlock ?_ (fun s hs => hs.1) (fun s _ hs => hs.2) ?_
  · rintro s s' - hrely ⟨hinside, huntold⟩
    refine ⟨hinside.rely hrely, ?_⟩
    rw [(hrely.holds hinside.owner).2.2]
    exact huntold
  · rintro s ⟨hinside, -⟩
    refine ⟨hinside.phase, fun h => ?_⟩
    cases h

end Events

/-! ## Runs -/

/-- Every operation keeps to the terms. -/
lemma load_disciplined (told : Prop) : load_system.Disciplined (load_discipline told) := by
  refine ⟨fun t => idle_stable, ?_⟩
  intro t op s hinv hidle hmay hok
  obtain ⟨hthread, hspotify⟩ := of_decide_eq_true hmay
  have hsession : Prog.Triple load_system (load_discipline told) t (Inside t)
      (.of .session_playlistcontainer) fun _ => Inside t := by
    intro s hs
    exact (triple_read (fun _ _ => rfl) (fun _ _ _ hrely h => h.rely hrely) s hs).mono
      fun _ _ h => h.1
  rcases op with ⟨u, track⟩ | ⟨u, ab⟩ | ⟨u, ab⟩ | u | ⟨u, playlist⟩ | events
  case round =>
    obtain rfl : Thread.spotify = t := hthread
    exact triple_process_events (fun htold => hok htold events rfl) s hidle
  all_goals
    obtain rfl : u = t := hthread
    have hne : u ≠ .spotify := fun h => by simpa using hspotify.mp h
  case get_playlists => exact triple_get_list hne _ hsession s hidle
  all_goals exact triple_get_list hne _ (.ret fun _ h => h) s hidle

/-- In every state that is reached the invariant holds. -/
lemma load_sound (told : Prop) {d : SpData}
    {l : List (World LoadInstr LoadState Thread × Action Thread LoadOp Chance)}
    {w : World LoadInstr LoadState Thread}
    (hl : Trace load_system (World.idle (.init d)) l w)
    (hok : told → ∀ p ∈ l, p.1.Starts (fun _ op _ => ∀ events, op = .round events → Told events)
      p.2) : w.Sound load_system (load_discipline told) := by
  refine hl.sound (load_disciplined told) (World.sound_idle ?_ fun t => ⟨rfl, fun h => ?_⟩) ?_
  · refine ⟨fun _ => List.mem_cons_self, fun t x h => ?_, fun t x h => ?_, fun _ h => ?_,
      fun _ => le_rfl, fun r hr => ?_⟩
    · cases h
    · cases h
    · cases h
    · cases hr
  · cases h
  · intro p hp
    refine ⟨?_, ?_⟩
    · rcases hp' : p.2 with ⟨t, op⟩ | ⟨t, o⟩
      · intro htold
        have h := hok htold p hp
        rw [hp'] at h
        exact h
      · trivial
    · rw [World.executes_iff]
      intros
      trivial

/-- In every run, each function that reads a list returns what was the list at one moment between
its call and its return, when its object had loaded without an error. It returns NULL only without
an object, for an object with an error, or where the object had not loaded and the time has
passed. -/
theorem get_list_returns {d : SpData}
    {l : List (World LoadInstr LoadState Thread × Action Thread LoadOp Chance)}
    {w : World LoadInstr LoadState Thread}
    (hl : Trace load_system (World.idle (.init d)) l w) : ∀ r ∈ w.shared.returns, r.Right :=
  (load_sound False hl fun h => h.elim).inv.returns

/-- In every run of the functions that read a list in which libspotify tells of what it loads,
whenever the spotify thread does not process events: a thread that waits for an object that has
loaded has a wake-up pending. -/
theorem loaded_awake {d : SpData}
    {l : List (World LoadInstr LoadState Thread × Action Thread LoadOp Chance)}
    {w : World LoadInstr LoadState Thread}
    (hl : Trace load_system (World.idle (.init d)) l w)
    (htold : ∀ p ∈ l,
      p.1.Starts (fun _ op _ => ∀ events, op = .round events → Told events) p.2)
    (howner : w.shared.owner ≠ some .spotify) {t : Thread} {x : SpObject} {woken : Bool}
    (hphase : w.shared.phase t = .parked x woken) (hload : w.shared.data.is_loaded x = true) :
    woken = true := by
  have hinv := (load_sound True hl fun _ => htold).inv
  rcases woken with _ | _
  · rcases hinv.parked t x hphase with hunloaded | huntold
    · rw [hload] at hunloaded
      cases hunloaded
    · exact absurd (hinv.untold trivial huntold) howner
  · rfl

/-! ## A run -/

/-- Nothing has loaded. -/
def nothing_loaded : SpData := ⟨fun _ => false, fun _ => 0, fun _ _ => [], none⟩

/-- Everything has loaded, and every list has two items. -/
def all_loaded : SpData := ⟨fun _ => true, fun _ => 0, fun _ _ => [1, 2], none⟩

/-- A step that takes no time. -/
def at_once : Chance := ⟨0, false, false⟩

/-- Thread `t` starts an operation and executes `n` instructions. -/
def load_run (t : Thread) (op : LoadOp) (n : ℕ) : List (Action Thread LoadOp Chance) :=
  .start t op :: List.replicate n (.step t at_once)

/-- The tracks of a playlist are asked for that loads in the meantime. -/
def wait_for_tracks : List (Action Thread LoadOp Chance) :=
  load_run (.handler 0) (.get_playlist_tracks (.handler 0) (some 7)) 5 ++
    load_run .spotify (.round [.load all_loaded, .tell]) 4

/-- The theorem where the tracks are returned. -/
theorem get_list_returns_tracks : ∃ l w,
    Trace load_system (World.idle (.init nothing_loaded)) l w ∧
    w.shared.returns.map (fun r => (r.object, r.array)) = [(some (.playlist 7), some [1, 2])] ∧
    ∀ r ∈ w.shared.returns, r.Right := by
  obtain ⟨l, w, hl, -, hreturns⟩ := Trace.exists_of_run load_system (fun _ _ => True)
    (World.idle (.init nothing_loaded))
    (wait_for_tracks ++ List.replicate 8 (.step (.handler 0) at_once))
    (fun w => w.shared.returns.map (fun r => (r.object, r.array)) =
      [(some (.playlist 7), some [1, 2])]) (by decide +kernel)
  exact ⟨l, w, hl, hreturns, get_list_returns hl⟩

/-- A load of which libspotify tells next. -/
lemma told_load_tell (d : SpData) : Told [.load d, .tell] := by
  intro l d' l' hsplit
  rcases l with _ | ⟨e, l⟩
  · obtain ⟨-, rfl⟩ := List.cons.inj hsplit
    exact List.mem_cons_self
  · obtain ⟨-, hsplit⟩ := List.cons.inj hsplit
    rcases l with _ | ⟨e, l⟩ <;> simp at hsplit

/-- The theorem where the tracks have loaded, and the thread that waits has not run yet. -/
theorem loaded_awake_tracks : ∃ l w woken,
    Trace load_system (World.idle (.init nothing_loaded)) l w ∧
    w.shared.phase (.handler 0) = .parked (.playlist 7) woken ∧ woken = true := by
  obtain ⟨l, w, hl, hmap, howner, hphase, hload⟩ := Trace.exists_of_schedule load_system
    (World.idle (.init nothing_loaded)) wait_for_tracks
    (fun w => w.shared.owner ≠ some .spotify ∧
      w.shared.phase (.handler 0) = .parked (.playlist 7) true ∧
      w.shared.data.is_loaded (.playlist 7) = true) (by decide +kernel)
  refine ⟨l, w, true, hl, hphase, loaded_awake hl ?_ howner hphase hload⟩
  intro p hp
  have hmem : p.2 ∈ wait_for_tracks := by
    rw [← hmap]
    exact List.mem_map_of_mem hp
  rcases hp2 : p.2 with ⟨t, op⟩ | ⟨t, o⟩
  · rw [hp2] at hmem
    rintro events rfl
    obtain ⟨-, rfl⟩ : t = .spotify ∧ events = [.load all_loaded, .tell] := by
      simpa [wait_for_tracks, load_run] using hmem
    exact told_load_tell _
  · trivial

end Spotifile.Loading
