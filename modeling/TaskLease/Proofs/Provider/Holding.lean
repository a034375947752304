import TaskLease.Proofs.Provider.World

/-!
# Who held a lock last, and how

A `Holding` is the last successful acquisition or extension of a name, as it is seen from outside: through
which handle, when, and for how long the lock was to be held at most and at least. It also says when that
handle was released, if it was. `lastHolding` reads it off a run.

`HandlesTrack` is the part of the invariant that is about handles: the handle of the last holding has the
durations that the holding was done with. A release relies on it, because the minimum time that it writes
comes from the handle and not from the store. It needs that a provider never has two held handles of a
name, since they would share an identity in the record.
-/

namespace TaskLease

open World

namespace Issued

instance (x : Issued) : Decidable x.Active := inferInstanceAs (Decidable (_ ∧ _))

end Issued

/-- The last acquisition or extension of a name. -/
structure Holding where
  /-- The number of the handle. -/
  handle : Nat
  provider : Nat
  since : Instant
  atMost : Duration
  atLeast : Duration
  /-- When the handle was released, if it was. -/
  released : Option Instant := none
deriving DecidableEq, Repr

namespace Holding

/-- The end of the lease: that of the longest time, or of the shortest one where the handle was released. -/
def finish (h : Holding) : Instant :=
  match h.released with
  | none => h.since.add h.atMost
  | some moment => max moment (h.since.add h.atLeast)

/-- The lease that a holding implies. -/
def lease (holder : Nat → String) (name : String) (h : Holding) : StoredLease Instant :=
  ⟨name, h.finish, h.since, holder h.provider⟩

/-- The lease that the last holding implies, which is the one from the beginning if there was no holding. -/
def recorded (holder : Nat → String) (name : String) (first : Option (StoredLease Instant)) :
    Option Holding → Option (StoredLease Instant)
  | none => first
  | some h => some (h.lease holder name)

/-- The holding after the release of a handle. -/
def release (i : Nat) (now : Instant) (h : Holding) : Holding :=
  if h.handle = i then { h with released := some now } else h

variable {h : Holding} {i : Nat} {now : Instant}

theorem release_of_ne (other : h.handle ≠ i) : h.release i now = h := if_neg other

theorem release_self (same : h.handle = i) : h.release i now = { h with released := some now } := if_pos same

/-- A handle is that of a holding: it has its durations, and does not count as held after a release. -/
structure IsOf (h : Holding) (name : String) (x : Issued) : Prop where
  provider : x.provider = h.provider
  name : x.name = name
  atMost : x.lease.config.atMost = h.atMost
  atLeast : x.lease.config.atLeast = h.atLeast
  released : h.released.isSome = true → ¬ x.Active

/-- A handle stays that of a holding if its configuration stays and it does not come to be held again. -/
theorem IsOf.change {name : String} {x y : Issued} (own : h.IsOf name x) (provider : y.provider = x.provider)
    (config : y.lease.config = x.lease.config) (active : y.Active → x.Active) : h.IsOf name y where
  provider := provider.trans own.provider
  name := (congrArg LockConfig.name config).trans own.name
  atMost := (congrArg LockConfig.atMost config).trans own.atMost
  atLeast := (congrArg LockConfig.atLeast config).trans own.atLeast
  released released held := own.released released (active held)

end Holding

/-- The last holding of a name after a step, given that before the step. -/
def World.note {σ : Type} (name : String) (w : World σ) (act : Act) (answer : Answer) (last : Option Holding) :
    Option Holding :=
  match act, answer with
  | .tryLock provider config, .attempted (.ok (some _)) =>
    if config.name = name then
      some { handle := w.handles.length, provider, since := w.clock
             atMost := config.atMost, atLeast := config.atLeast }
    else last
  | .extend i atMost atLeast, .extended (.ok true) =>
    match w.handles[i]? with
    | some x =>
      if x.name = name then some { handle := i, provider := x.provider, since := w.clock, atMost, atLeast }
      else last
    | none => last
  | .unlock i, .released (.ok ()) =>
    match w.handles[i]? with
    | some x => if x.lease.state = .held then last.map (Holding.release i w.clock) else last
    | none => last
  | .settle i, .settled [.log .droppedWhileHeld _] => last.map (Holding.release i w.clock)
  | _, _ => last

/-- The last holding of a name after a run. -/
def Setting.lastHolding (e : Setting) (name : String) :
    List Move → World e.store.State → Option Holding → Option Holding
  | [], _, last => last
  | m :: rest, w, last =>
    let next := e.step m.faults w m.act
    lastHolding e name rest next.2 (w.note name m.act next.1 last)

/-- No provider has two held handles of one name. -/
def World.OneHeld {σ : Type} (w : World σ) : Prop :=
  w.handles.Pairwise fun x y => x.Active → y.Active → x.provider = y.provider → x.name ≠ y.name

instance {σ : Type} (w : World σ) : Decidable w.OneHeld :=
  inferInstanceAs (Decidable (w.handles.Pairwise _))

theorem World.OneHeld.eq {σ : Type} {w : World σ} (held : w.OneHeld) {i j : Nat} {x y : Issued}
    (first : w.handles[i]? = some x) (second : w.handles[j]? = some y) (active : x.Active) (active' : y.Active)
    (provider : x.provider = y.provider) (name : x.name = y.name) : i = j := by
  obtain ⟨bound, rfl⟩ := List.getElem?_eq_some_iff.mp first
  obtain ⟨bound', rfl⟩ := List.getElem?_eq_some_iff.mp second
  have distinct := List.pairwise_iff_getElem.mp held
  rcases lt_trichotomy i j with before | same | after
  · exact absurd name (distinct i j bound bound' before active active' provider)
  · exact same
  · exact absurd name.symm (distinct j i bound' bound after active' active provider.symm)

/-- A step that does not set the clock back, or to a leap second. -/
def World.Act.Forward (clock : Instant) : Act → Prop
  | .setClock now => clock ≤ now ∧ now.isLeap = false
  | _ => True

instance (clock : Instant) (act : Act) : Decidable (act.Forward clock) := by
  unfold Act.Forward
  cases act <;> infer_instance

/-- The clock never goes back and never shows a leap second, and no provider ever has two held handles of
one name. -/
def Setting.Steady (e : Setting) : List Move → World e.store.State → Prop
  | [], _ => True
  | m :: rest, w =>
    m.act.Forward w.clock ∧ (e.step m.faults w m.act).2.OneHeld ∧ Steady e rest (e.step m.faults w m.act).2

instance Setting.decidableSteady (e : Setting) :
    (moves : List Move) → (w : World e.store.State) → Decidable (e.Steady moves w)
  | [], _ => .isTrue trivial
  | m :: rest, w =>
    have := decidableSteady e rest (e.step m.faults w m.act).2
    inferInstanceAs (Decidable (_ ∧ _ ∧ _))

/-! ## Handles -/

/-- How the handles agree with the last holding of a name. -/
structure HandlesTrack (name : String) (handles : List Issued) (last : Option Holding) : Prop where
  /-- Without a holding there is no handle of the name. -/
  absent : last = none → ∀ x ∈ handles, x.name ≠ name
  handle : ∀ h, last = some h → ∃ x, handles[h.handle]? = some x ∧ h.IsOf name x
  /-- The provider of the holding has no other held handle of the name. -/
  only : ∀ h, last = some h → ∀ i x, handles[i]? = some x → x.Active → x.name = name →
    x.provider = h.provider → i = h.handle

namespace HandlesTrack

variable {name : String} {handles : List Issued} {last : Option Holding} {i : Nat} {x y : Issued} {now : Instant}

theorem isSome_last (t : HandlesTrack name handles last) (found : handles[i]? = some x) (named : x.name = name) :
    last.isSome = true := by
  cases last with
  | none => exact absurd named (t.absent rfl x (List.mem_of_getElem? found))
  | some h => rfl

/-- A handle may change as long as its configuration stays and it does not come to be held again. -/
theorem set (t : HandlesTrack name handles last) (found : handles[i]? = some x)
    (provider : y.provider = x.provider) (config : y.lease.config = x.lease.config) (active : y.Active → x.Active) :
    HandlesTrack name (handles.set i y) last where
  absent this z member := by
    rcases List.mem_or_eq_of_mem_set member with old | rfl
    · exact t.absent this z old
    · intro named
      exact t.absent this x (List.mem_of_getElem? found) ((congrArg LockConfig.name config).symm.trans named)
  handle h this := by
    obtain ⟨z, there, own⟩ := t.handle h this
    by_cases mine : i = h.handle
    · subst mine
      cases found.symm.trans there
      have bound := (List.getElem?_eq_some_iff.mp found).1
      exact ⟨y, List.getElem?_set_self bound, own.change provider config active⟩
    · exact ⟨z, (List.getElem?_set_ne mine).trans there, own⟩
  only h this j z there held named same := by
    by_cases mine : i = j
    · subst mine
      have bound := (List.getElem?_eq_some_iff.mp found).1
      rw [List.getElem?_set_self bound] at there
      cases there
      exact t.only h this i x found (active held) ((congrArg LockConfig.name config).symm.trans named)
        (provider.symm.trans same)
    · rw [List.getElem?_set_ne mine] at there
      exact t.only h this j z there held named same

/-- A handle of another name may change in any way. -/
theorem set_of_ne (t : HandlesTrack name handles last) (found : handles[i]? = some x) (other : x.name ≠ name)
    (still : y.name ≠ name) : HandlesTrack name (handles.set i y) last where
  absent this z member := by
    rcases List.mem_or_eq_of_mem_set member with old | rfl
    · exact t.absent this z old
    · exact still
  handle h this := by
    obtain ⟨z, there, own⟩ := t.handle h this
    have ne : i ≠ h.handle := by
      rintro rfl
      cases found.symm.trans there
      exact other own.name
    exact ⟨z, (List.getElem?_set_ne ne).trans there, own⟩
  only h this j z there held named same := by
    by_cases mine : i = j
    · subst mine
      have bound := (List.getElem?_eq_some_iff.mp found).1
      rw [List.getElem?_set_self bound] at there
      cases there
      exact absurd named still
    · rw [List.getElem?_set_ne mine] at there
      exact t.only h this j z there held named same

/-- A handle that no longer counts as held may be noted as released. -/
theorem release (t : HandlesTrack name handles last) (found : handles[i]? = some y) (idle : ¬ y.Active) :
    HandlesTrack name handles (last.map (Holding.release i now)) where
  absent this := t.absent (Option.map_eq_none_iff.mp this)
  handle h this := by
    obtain ⟨before, was, rfl⟩ := Option.map_eq_some_iff.mp this
    obtain ⟨z, there, own⟩ := t.handle before was
    by_cases mine : before.handle = i
    · subst mine
      cases found.symm.trans there
      rw [Holding.release_self rfl]
      exact ⟨y, there, own.provider, own.name, own.atMost, own.atLeast, fun _ => idle⟩
    · rw [Holding.release_of_ne mine]
      exact ⟨z, there, own⟩
  only h this j z there held named same := by
    obtain ⟨before, was, rfl⟩ := Option.map_eq_some_iff.mp this
    by_cases mine : before.handle = i
    · rw [Holding.release_self mine] at same ⊢
      exact t.only before was j z there held named same
    · rw [Holding.release_of_ne mine] at same ⊢
      exact t.only before was j z there held named same

/-- A handle of another name may be given out. -/
theorem append (t : HandlesTrack name handles last) {issued : List Issued}
    (other : ∀ y ∈ issued, y.name ≠ name) : HandlesTrack name (handles ++ issued) last where
  absent this z member := by
    rcases List.mem_append.mp member with old | new
    · exact t.absent this z old
    · exact other z new
  handle h this := by
    obtain ⟨z, there, own⟩ := t.handle h this
    have bound := (List.getElem?_eq_some_iff.mp there).1
    exact ⟨z, (List.getElem?_append_left bound).trans there, own⟩
  only h this j z there held named same := by
    by_cases old : j < handles.length
    · rw [List.getElem?_append_left old] at there
      exact t.only h this j z there held named same
    · rw [List.getElem?_append_right (Nat.le_of_not_lt old)] at there
      exact absurd named (other z (List.mem_of_getElem? there))

/-- The handle of a new holding, where its provider has no other held one of the name. -/
theorem of_new {h : Holding} (found : handles[h.handle]? = some x) (own : h.IsOf name x)
    (only : ∀ i y, handles[i]? = some y → y.Active → y.name = name → y.provider = x.provider → i = h.handle) :
    HandlesTrack name handles (some h) where
  absent this := by cases this
  handle g this := by
    cases this
    exact ⟨x, found, own⟩
  only g this i y there active named same := by
    cases this
    exact only i y there active named (same.trans own.provider.symm)

end HandlesTrack

end TaskLease
