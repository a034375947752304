import Mathlib.Data.List.Nodup
import Mathlib.Data.String.Basic
import TaskLease.Proofs.Provider.Desk

/-!
# The locks that are tracked

A tracker keeps a copy of what is known of every handle that its provider has given out, and changes it after each
act by what the act was answered. `tracks_standing` says that the copy is exact: whatever the accessor answers and
whatever is done, the locks listed are the current configurations of the handles that stand, no more and no fewer.

`Desk.Mirrors` is the invariant. A handle has the number under which it is tracked, and one that was released or
found lost is `Over`: as no extension of it can succeed, nothing puts it back.
-/

namespace TaskLease

/-! ## Tables with distinct keys -/

namespace Table

variable {κ α : Type} [DecidableEq κ] {t : Table κ α}

theorem mem_keys_put {k key : κ} {v : α} {es : List (κ × α)} (there : key ∈ (put k v es).map (·.1)) :
    key = k ∨ key ∈ es.map (·.1) := by
  induction es with
  | nil => exact .inl (List.mem_singleton.mp there)
  | cons e rest ih =>
    by_cases same : e.1 = k
    · rw [put, if_pos same, List.map_cons, List.mem_cons] at there
      rw [List.map_cons, List.mem_cons]
      exact there.imp id .inr
    · rw [put, if_neg same, List.map_cons, List.mem_cons] at there
      rw [List.map_cons, List.mem_cons]
      rcases there with first | later
      · exact .inr (.inl first)
      · exact (ih later).imp id .inr

theorem nodup_insert (distinct : t.keys.Nodup) (k : κ) (v : α) : (t.insert k v).keys.Nodup := by
  obtain ⟨es⟩ := t
  simp only [keys, insert] at distinct ⊢
  induction es with
  | nil => exact List.nodup_singleton k
  | cons e rest ih =>
    obtain ⟨absent, later⟩ := List.nodup_cons.mp distinct
    by_cases same : e.1 = k
    · rw [put, if_pos same, List.map_cons, List.nodup_cons]
      exact ⟨same ▸ absent, later⟩
    · rw [put, if_neg same, List.map_cons, List.nodup_cons]
      refine ⟨fun there => ?_, ih later⟩
      exact (mem_keys_put there).elim same absent

theorem nodup_erase (distinct : t.keys.Nodup) (k : κ) : (t.erase k).keys.Nodup :=
  distinct.sublist (List.filter_sublist.map _)

/-- If no key comes twice, every entry counts. -/
theorem mem_entries_iff (distinct : t.keys.Nodup) {k : κ} {v : α} : (k, v) ∈ t.entries ↔ t.get? k = some v := by
  obtain ⟨es⟩ := t
  simp only [keys, get?] at distinct ⊢
  induction es with
  | nil => simp [lookup]
  | cons e rest ih =>
    obtain ⟨key, value⟩ := e
    obtain ⟨absent, later⟩ := List.nodup_cons.mp distinct
    rw [List.mem_cons, Prod.mk.injEq]
    by_cases same : key = k
    · subst same
      rw [lookup, if_pos rfl, Option.some.injEq]
      constructor
      · rintro (⟨-, rfl⟩ | there)
        · rfl
        · exact absurd (List.mem_map_of_mem there) absent
      · rintro rfl
        exact .inl ⟨rfl, rfl⟩
    · rw [lookup, if_neg same, ← ih later]
      exact or_iff_right fun first => same first.1.symm

/-- The values of a table, if it is known which keys have one. -/
theorem values_perm (distinct : t.keys.Nodup) {ks : List κ} (others : ks.Nodup) {f : κ → Option α}
    (agrees : ∀ k, t.get? k = if k ∈ ks then f k else none) : t.values.Perm (ks.filterMap f) := by
  have entries : t.entries.Perm (ks.filterMap fun k => (f k).map (k, ·)) := by
    refine (List.perm_ext_iff_of_nodup (List.Nodup.of_map _ distinct) (others.filterMap ?_)).mpr ?_
    · intro k k' e this that
      obtain ⟨v, -, rfl⟩ := Option.map_eq_some_iff.mp this
      obtain ⟨v', -, same⟩ := Option.map_eq_some_iff.mp that
      exact (congrArg Prod.fst same).symm
    · rintro ⟨k, v⟩
      rw [mem_entries_iff distinct, agrees, List.mem_filterMap]
      constructor
      · intro this
        by_cases member : k ∈ ks
        · rw [if_pos member] at this
          exact ⟨k, member, by rw [this, Option.map_some]⟩
        · rw [if_neg member] at this
          cases this
      · rintro ⟨k', member, this⟩
        obtain ⟨v', has, same⟩ := Option.map_eq_some_iff.mp this
        cases same
        rw [if_pos member, has]
  have values := entries.map (·.2)
  rw [List.map_filterMap] at values
  simp only [Option.map_map, Function.comp_def, Option.map_id'] at values
  exact values

end Table

/-! ## Listing -/

theorem Duration.eq_iff_nanos {a b : Duration} : a = b ↔ a.nanos = b.nanos :=
  ⟨congrArg Duration.nanos, fun same => by cases a; cases b; cases same; rfl⟩

namespace Tracker

variable {t : Tracker}

theorem precedes_total (a b : LockConfig) : (precedes a b || precedes b a) = true := by
  unfold precedes
  by_cases named : a.name = b.name
  · by_cases most : a.atMost = b.atMost
    · simpa [named, most, Duration.le_def] using Nat.le_total a.atLeast.nanos b.atLeast.nanos
    · simpa [named, most, Ne.symm most, Duration.le_def] using Nat.le_total a.atMost.nanos b.atMost.nanos
  · simpa [named, Ne.symm named] using lt_or_gt_of_ne named

theorem name_le_of_precedes {a b : LockConfig} (before : precedes a b = true) : a.name ≤ b.name := by
  unfold precedes at before
  split at before
  · rename_i named
    exact named.le
  · exact (of_decide_eq_true before).le

theorem precedes_trans (a b c : LockConfig) (before : precedes a b = true) (after : precedes b c = true) :
    precedes a c = true := by
  have up := name_le_of_precedes before
  have on := name_le_of_precedes after
  unfold precedes at before after ⊢
  by_cases named : a.name = c.name
  · obtain same : a.name = b.name := up.antisymm (named ▸ on)
    rw [if_pos same] at before
    rw [if_pos (same.symm.trans named)] at after
    rw [if_pos named]
    simp only [Duration.eq_iff_nanos, Duration.le_def] at before after ⊢
    split at before <;> split at after <;> split <;> simp only [decide_eq_true_iff] at before after ⊢ <;> omega
  · rw [if_neg named]
    exact decide_eq_true (lt_of_le_of_ne (up.trans on) named)

theorem get?_remove_self (t : Tracker) (id : Nat) : (t.remove id).active.get? id = none := by
  rw [remove, Table.get?_erase, if_pos rfl]

theorem activeLocks_perm (t : Tracker) : t.activeLocks.Perm t.active.values := List.mergeSort_perm ..

theorem activeLocks_sorted (t : Tracker) : t.activeLocks.Pairwise fun a b => a.name ≤ b.name :=
  (List.pairwise_mergeSort precedes_trans precedes_total _).imp name_le_of_precedes

theorem activeLock?_isSome_iff {name : String} :
    (t.activeLock? name).isSome = true ↔ ∃ config ∈ t.activeLocks, config.name = name := by
  rw [activeLock?, List.find?_isSome]
  simp only [t.activeLocks_perm.mem_iff, decide_eq_true_iff]

theorem mem_of_activeLock? {name : String} {config : LockConfig} (found : t.activeLock? name = some config) :
    config ∈ t.activeLocks ∧ config.name = name :=
  ⟨t.activeLocks_perm.mem_iff.mpr (List.mem_of_find?_eq_some found),
    of_decide_eq_true (List.find?_some (p := fun c : LockConfig => decide (c.name = name)) found)⟩

end Tracker
namespace Desk

variable {σ : Type} {history : List Entry} {entry : Entry} {i : Nat} {config : LockConfig}

/-! ## What an entry adds to a history -/

theorem issued_append : issued (history ++ [entry]) = issued history ++ entry.acquired?.toList := by
  rw [issued, List.filterMap_append]
  cases acquired : entry.acquired? with
  | none => rw [List.filterMap_cons_none acquired]; rfl
  | some config => rw [List.filterMap_cons_some acquired]; rfl

theorem issued_append_of_none (acquires : entry.acquired? = none) : issued (history ++ [entry]) = issued history := by
  rw [issued_append, acquires]
  exact List.append_nil _

theorem renewals_append_of_none (renews : entry.renewal? i = none) :
    renewals i (history ++ [entry]) = renewals i history := by
  rw [renewals, List.filterMap_append, List.filterMap_cons_none renews]
  exact List.append_nil _

theorem current_append_of_none (acquires : entry.acquired? = none) (renews : entry.renewal? i = none) :
    current (history ++ [entry]) i = current history i := by
  rw [current, current, issued_append_of_none acquires, renewals_append_of_none renews]

theorem current_eq_none (beyond : (issued history).length ≤ i) : current history i = none := by
  rw [current, List.getElem?_eq_none beyond]
  rfl

/-- However often it is extended, a lock keeps its name. -/
theorem current_spec (shown : current history i = some config) :
    ∃ first, (issued history)[i]? = some first ∧ config.name = first.name := by
  obtain ⟨first, given, rfl⟩ := Option.map_eq_some_iff.mp shown
  refine ⟨first, given, ?_⟩
  cases (renewals i history).getLast? with
  | none => rfl
  | some durations =>
    cases allowed : first.withDurations durations.1 durations.2 with
    | error e => simp [allowed, Except.toOption]
    | ok renewed =>
      simp only [allowed, Except.toOption, Option.getD_some]
      exact (LockConfig.withDurations_eq_ok_iff.mp allowed).1

/-- The durations of an extension that succeeded are current. -/
theorem current_append_renewed {before renewed : LockConfig} {atMost atLeast : Duration}
    (shown : current history i = some before) (acquires : entry.acquired? = none)
    (renews : entry.renewal? i = some (atMost, atLeast))
    (allowed : before.withDurations atMost atLeast = .ok renewed) :
    current (history ++ [entry]) i = some renewed := by
  obtain ⟨first, given, named⟩ := current_spec shown
  have same : first.withDurations atMost atLeast = .ok renewed := by
    rw [← allowed, LockConfig.withDurations, LockConfig.withDurations, named]
  have last : (renewals i (history ++ [entry])).getLast? = some (atMost, atLeast) := by
    rw [renewals, List.filterMap_append, List.filterMap_cons_some renews]
    exact List.getLast?_concat
  rw [current, issued_append_of_none acquires, given, last]
  simp [same, Except.toOption]

/-- An entry about a handle, or about none, settles nothing for another one. -/
theorem entry_elsewhere (elsewhere : entry.handle? ≠ some i) : entry.ends i = false ∧ entry.renewal? i = none := by
  cases entry with
  | attempted | rang | nothing => exact ⟨rfl, rfl⟩
  | unlocked j _ answer =>
    have other : j ≠ i := fun same => elsewhere (congrArg some same)
    rcases answer with _ | _ <;> simp [Entry.ends, Entry.drops, Entry.releases, Entry.loses, Entry.renewal?, other]
  | extended j _ _ _ answer =>
    have other : j ≠ i := fun same => elsewhere (congrArg some same)
    rcases answer with _ | _ | _ <;>
      simp [Entry.ends, Entry.drops, Entry.releases, Entry.loses, Entry.renewal?, other]
  | dropped j =>
    have other : j ≠ i := fun same => elsewhere (congrArg some same)
    simp [Entry.ends, Entry.drops, Entry.releases, Entry.loses, Entry.renewal?, other]

theorem acquired?_of_handle? (about : entry.handle? = some i) : entry.acquired? = none := by
  cases entry with
  | attempted | nothing => cases about
  | unlocked | extended | dropped | rang => rfl

/-! ## The copy and what it is a copy of -/

/-- A handle is what the history has made of it. -/
def Accords (history : List Entry) (i : Nat) (h : Handle) : Prop :=
  ∃ inner, h = .tracked i inner ∧ current history i = some inner.config ∧
    (history.any (Entry.ends i) = true → inner.Over)

/-- A tracker and the handles that were given out agree with the history. -/
structure Mirrors (history : List Entry) (t : Tracker) (handles : List (Option Handle)) : Prop where
  count : handles.length = (issued history).length
  next : t.nextId = (issued history).length
  distinct : t.active.keys.Nodup
  active : ∀ i, t.active.get? i = if history.any (Entry.ends i) then none else current history i
  handle : ∀ i h, handles[i]? = some (some h) → Accords history i h
  /-- Nothing was done with a handle before it was given out. -/
  fresh : ∀ e ∈ history, ∀ i, e.handle? = some i → i < (issued history).length

theorem any_append_of_elsewhere (elsewhere : entry.handle? ≠ some i) :
    (history ++ [entry]).any (Entry.ends i) = history.any (Entry.ends i) := by
  rw [List.any_append, List.any_cons, (entry_elsewhere elsewhere).1]
  simp

theorem any_append_of_ends (ends : entry.ends i = true) : (history ++ [entry]).any (Entry.ends i) = true := by
  rw [List.any_append, List.any_cons, ends]
  simp

/-- An entry about another handle leaves a handle in accord. -/
theorem Accords.elsewhere {h : Handle} (accords : Accords history i h) (acquires : entry.acquired? = none)
    (elsewhere : entry.handle? ≠ some i) : Accords (history ++ [entry]) i h := by
  obtain ⟨inner, rfl, shown, spent⟩ := accords
  refine ⟨inner, rfl, ?_, ?_⟩
  · rw [current_append_of_none acquires (entry_elsewhere elsewhere).2]
    exact shown
  · rw [any_append_of_elsewhere elsewhere]
    exact spent

namespace Mirrors

variable {t : Tracker} {handles : List (Option Handle)} {h : Handle}

/-- In the beginning there is nothing to track. -/
theorem opened : Mirrors [] {} [] where
  count := rfl
  next := rfl
  distinct := List.nodup_nil
  active _ := rfl
  handle _ _ there := by cases there
  fresh _ there := by cases there

theorem lt (m : Mirrors history t handles) (there : handles[i]? = some (some h)) : i < (issued history).length := by
  rw [← m.count]
  exact (List.getElem?_eq_some_iff.mp there).1

/-- Nothing was done with a handle that is yet to be given out. -/
theorem untouched (m : Mirrors history t handles) (beyond : (issued history).length ≤ i) :
    history.any (Entry.ends i) = false ∧ renewals i history = [] := by
  have elsewhere : ∀ e ∈ history, e.handle? ≠ some i := fun e there about =>
    absurd (m.fresh e there i about) (Nat.not_lt.mpr beyond)
  constructor
  · rw [List.any_eq_false]
    intro e there
    rw [(entry_elsewhere (elsewhere e there)).1]
    exact Bool.false_ne_true
  · exact List.filterMap_eq_nil_iff.mpr fun e there => (entry_elsewhere (elsewhere e there)).2

/-- An act on none of the handles changes nothing, unless it is an attempt that succeeds. -/
theorem aside (m : Mirrors history t handles) (acquires : entry.acquired? = none) (about : entry.handle? = none) :
    Mirrors (history ++ [entry]) t handles := by
  have elsewhere : ∀ i, entry.handle? ≠ some i := fun i => by simp [about]
  refine ⟨?_, ?_, m.distinct, ?_, ?_, ?_⟩
  · rw [issued_append_of_none acquires]
    exact m.count
  · rw [issued_append_of_none acquires]
    exact m.next
  · intro i
    rw [any_append_of_elsewhere (elsewhere i), current_append_of_none acquires (entry_elsewhere (elsewhere i)).2]
    exact m.active i
  · intro i h there
    exact (m.handle i h there).elsewhere acquires (elsewhere i)
  · intro e there i on
    rw [issued_append_of_none acquires]
    rcases List.mem_append.mp there with earlier | last
    · exact m.fresh e earlier i on
    · cases List.mem_singleton.mp last
      exact absurd on (elsewhere i)

/-- An attempt that succeeds gives out a handle, and enters it. -/
theorem acquired (m : Mirrors history t handles) {inner : Handle} (named : inner.config = config) :
    Mirrors (history ++ [.attempted config (.ok true)]) (t.enter config).2
      (handles ++ [some (.tracked t.nextId inner)]) := by
  have elsewhere : ∀ i, (Entry.attempted config (.ok true)).handle? ≠ some i := by rintro i ⟨⟩
  have given : issued (history ++ [.attempted config (.ok true)]) = issued history ++ [config] := issued_append
  have shown (i : Nat) : current (history ++ [.attempted config (.ok true)]) i =
      if t.nextId = i then some config else current history i := by
    rw [current, given, renewals_append_of_none rfl]
    by_cases new : t.nextId = i
    · have last : i = (issued history).length := new.symm.trans m.next
      rw [if_pos new, (m.untouched last.ge).2, last, List.getElem?_concat_length]
      rfl
    · have other : i ≠ (issued history).length := fun same => new (m.next.trans same.symm)
      rw [if_neg new, current]
      rcases Nat.lt_or_gt_of_ne other with old | beyond
      · rw [List.getElem?_append_left old]
      · rw [List.getElem?_eq_none beyond.le, List.getElem?_eq_none (by simp; omega)]
  refine ⟨?_, ?_, Table.nodup_insert m.distinct _ _, ?_, ?_, ?_⟩
  · simp [given, m.count]
  · simp [given, Tracker.enter, m.next]
  · intro i
    rw [any_append_of_elsewhere (elsewhere i), shown, Tracker.enter, Table.get?_insert, m.active]
    by_cases new : t.nextId = i
    · rw [if_pos new, if_pos new, (m.untouched (m.next.symm.trans new).le).1]
      rfl
    · rw [if_neg new, if_neg new]
  · intro i h there
    rcases Nat.lt_or_ge i handles.length with old | beyond
    · rw [List.getElem?_append_left old] at there
      obtain ⟨before, rfl, same, spent⟩ := m.handle i h there
      refine ⟨before, rfl, ?_, ?_⟩
      · rw [shown, if_neg (by rw [m.next, ← m.count]; omega)]
        exact same
      · rw [any_append_of_elsewhere (elsewhere i)]
        exact spent
    · rw [List.getElem?_append_right beyond, List.getElem?_singleton] at there
      have last : i = handles.length := by
        by_contra other
        rw [if_neg (by omega)] at there
        cases there
      rw [if_pos (by omega)] at there
      have new : t.nextId = i := by rw [m.next, ← m.count, last]
      cases there
      refine ⟨inner, by rw [new], ?_, ?_⟩
      · rw [shown, if_pos new, named]
      · rw [any_append_of_elsewhere (elsewhere i), (m.untouched (m.next.symm.trans new).le).1]
        rintro ⟨⟩
  · intro e there i on
    rw [given, List.length_append]
    rcases List.mem_append.mp there with earlier | last
    · exact Nat.lt_add_right _ (m.fresh e earlier i on)
    · cases List.mem_singleton.mp last
      cases on

/-- An act on a handle concerns no other one. What is left to see is that the tracker has learned what it has to,
and that the handle is left as it has to be. -/
theorem used (m : Mirrors history t handles) (there : handles[i]? = some (some h))
    (about : entry.handle? = some i) {t' : Tracker} {left : Option Handle} (next : t'.nextId = t.nextId)
    (distinct : t'.active.keys.Nodup) (others : ∀ j, i ≠ j → t'.active.get? j = t.active.get? j)
    (own : t'.active.get? i =
      if (history ++ [entry]).any (Entry.ends i) then none else current (history ++ [entry]) i)
    (handle : ∀ h', left = some h' → Accords (history ++ [entry]) i h') :
    Mirrors (history ++ [entry]) t' (handles.set i left) := by
  have acquires := acquired?_of_handle? about
  have elsewhere {j : Nat} (other : i ≠ j) : entry.handle? ≠ some j := by
    rw [about]
    exact fun same => other (Option.some.inj same)
  refine ⟨?_, ?_, distinct, ?_, ?_, ?_⟩
  · rw [issued_append_of_none acquires, List.length_set]
    exact m.count
  · rw [issued_append_of_none acquires, next]
    exact m.next
  · intro j
    by_cases same : i = j
    · subst same
      exact own
    · rw [others j same, m.active, any_append_of_elsewhere (elsewhere same),
        current_append_of_none acquires (entry_elsewhere (elsewhere same)).2]
  · intro j h' found
    by_cases same : i = j
    · subst same
      rw [List.getElem?_set_self (List.getElem?_eq_some_iff.mp there).1] at found
      exact handle h' (Option.some.inj found)
    · rw [List.getElem?_set_ne same] at found
      exact (m.handle j h' found).elsewhere acquires (elsewhere same)
  · intro e member j on
    rw [issued_append_of_none acquires]
    rcases List.mem_append.mp member with earlier | last
    · exact m.fresh e earlier j on
    · cases List.mem_singleton.mp last
      cases about.symm.trans on
      exact m.lt there

/-- An act on a handle that settles nothing. -/
theorem unsettled (m : Mirrors history t handles) {inner left : Handle}
    (there : handles[i]? = some (some (.tracked i inner))) (about : entry.handle? = some i)
    (ends : entry.ends i = false) (renews : entry.renewal? i = none) (same : left.config = inner.config)
    (spent : inner.Over → left.Over) :
    Mirrors (history ++ [entry]) t (handles.set i (some (.tracked i left))) := by
  obtain ⟨before, this, shown, ended⟩ := m.handle i _ there
  cases this
  have acquires := acquired?_of_handle? about
  have still : (history ++ [entry]).any (Entry.ends i) = history.any (Entry.ends i) := by
    rw [List.any_append, List.any_cons, ends]
    simp
  refine m.used there about rfl m.distinct (fun _ _ => rfl) ?_ ?_
  · rw [m.active, still, current_append_of_none acquires renews]
  · rintro h' ⟨⟩
    refine ⟨left, rfl, ?_, fun gone => spent (ended (still ▸ gone))⟩
    rw [current_append_of_none acquires renews, same]
    exact shown

/-- An act on a handle that ends it. -/
theorem ended (m : Mirrors history t handles) {inner : Handle} {left : Option Handle}
    (there : handles[i]? = some (some (.tracked i inner))) (about : entry.handle? = some i)
    (ends : entry.ends i = true) (renews : entry.renewal? i = none)
    (spent : ∀ h', left = some h' → ∃ idle : Handle, h' = .tracked i idle ∧ idle.config = inner.config ∧ idle.Over) :
    Mirrors (history ++ [entry]) (t.remove i) (handles.set i left) := by
  obtain ⟨before, this, shown, -⟩ := m.handle i _ there
  cases this
  refine m.used there about rfl (Table.nodup_erase m.distinct i) ?_ ?_ ?_
  · intro j other
    rw [Tracker.remove, Table.get?_erase, if_neg other]
  · rw [any_append_of_ends ends, Tracker.get?_remove_self, if_pos rfl]
  · intro h' this
    obtain ⟨idle, rfl, same, spent⟩ := spent h' this
    refine ⟨idle, rfl, ?_, fun _ => spent⟩
    rw [current_append_of_none (acquired?_of_handle? about) renews, same]
    exact shown

/-- An extension that succeeds. -/
theorem renewed (m : Mirrors history t handles) {inner left : Handle} {atMost atLeast : Duration}
    {calls : List Accessor.Call} (there : handles[i]? = some (some (.tracked i inner))) (active : ¬ inner.Over)
    (allowed : inner.config.withDurations atMost atLeast = .ok left.config) :
    Mirrors (history ++ [.extended i atMost atLeast calls (.ok true)]) (t.update i left.config)
      (handles.set i (some (.tracked i left))) := by
  obtain ⟨before, this, shown, ended⟩ := m.handle i _ there
  cases this
  have now : current (history ++ [.extended i atMost atLeast calls (.ok true)]) i = some left.config :=
    current_append_renewed shown rfl (if_pos rfl) allowed
  have stands : (history ++ [Entry.extended i atMost atLeast calls (.ok true)]).any (Entry.ends i) = false := by
    rw [List.any_append, List.any_cons, Bool.eq_false_iff.mpr fun gone => active (ended gone)]
    rfl
  refine m.used there rfl rfl (Table.nodup_insert m.distinct _ _) ?_ ?_ ?_
  · intro j other
    rw [Tracker.update, Table.get?_insert_of_ne _ _ other]
  · rw [stands, now, Tracker.update, Table.get?_insert_self]
    rfl
  · rintro h' ⟨⟩
    refine ⟨left, rfl, now, fun gone => ?_⟩
    rw [stands] at gone
    cases gone

end Mirrors

/-! ## Acts -/

theorem at?_eq_some {d : Desk σ} {h : Handle} : d.at? i = some h ↔ d.handles[i]? = some (some h) := by
  rw [at?, Option.join_eq_some_iff]

/-- The provider of a desk has a tracker around it that agrees with the history. -/
def Tracked (history : List Entry) (d : Desk σ) : Prop :=
  ∃ t p, d.provider = .tracking t p ∧ Mirrors history t d.handles

theorem tracker_of_tracking {d : Desk σ} {t : Tracker} {p : Provider} (layered : d.provider = .tracking t p) :
    d.tracker = t := by
  rw [tracker, layered]
  rfl

section

variable (accessor : Accessor σ) {d : Desk σ}

theorem tryLock_tracked (tracked : Tracked history d) (config : LockConfig) :
    Tracked (history ++ [(d.step accessor (.tryLock config)).1]) (d.step accessor (.tryLock config)).2 := by
  obtain ⟨t, p, layered, m⟩ := tracked
  simp only [step, layered, Provider.tryLock_tracking]
  rcases attempt : p.tryLock accessor d.timer config d.stage with ⟨⟨_ | _ | h, p'⟩, stage⟩
  · exact ⟨t, p', rfl, by simpa [given] using m.aside rfl rfl⟩
  · exact ⟨t, p', rfl, by simpa [given] using m.aside rfl rfl⟩
  · have named : h.config = config := p.config_of_tryLock accessor d.timer config d.stage (by rw [attempt])
    exact ⟨(t.enter config).2, p', rfl, m.acquired named⟩

theorem unlock_tracked (tracked : Tracked history d) (i : Nat) :
    Tracked (history ++ [(d.step accessor (.unlock i)).1]) (d.step accessor (.unlock i)).2 := by
  obtain ⟨t, p, layered, m⟩ := tracked
  cases found : d.at? i with
  | none =>
    simp only [step, found]
    exact ⟨t, p, layered, m.aside rfl rfl⟩
  | some h =>
    have there := at?_eq_some.mp found
    obtain ⟨inner, rfl, -, -⟩ := m.handle i h there
    simp only [step, found, Accessor.observe, layered, Handle.unlock_tracked, Provider.inner]
    have leaves := inner.unlock_leaves accessor.recording p ⟨(d.stage.store, []), d.stage.events⟩
    revert leaves
    rcases inner.unlock accessor.recording p ⟨(d.stage.store, []), d.stage.events⟩ with ⟨⟨_ | _, left, p'⟩, stage⟩
    · rintro ⟨same, -, spent⟩
      exact ⟨t, p', rfl, m.unsettled there rfl (by simp [Entry.ends, Entry.drops, Entry.releases, Entry.loses]) rfl
        same spent⟩
    · rintro ⟨same, spent, -⟩
      refine ⟨t.remove i, p', rfl, m.ended there rfl (by simp [Entry.ends, Entry.releases]) rfl ?_⟩
      rintro h' ⟨⟩
      exact ⟨left, rfl, same, spent rfl⟩

theorem extend_tracked (tracked : Tracked history d) (i : Nat) (atMost atLeast : Duration) :
    Tracked (history ++ [(d.step accessor (.extend i atMost atLeast)).1])
      (d.step accessor (.extend i atMost atLeast)).2 := by
  obtain ⟨t, p, layered, m⟩ := tracked
  cases found : d.at? i with
  | none =>
    simp only [step, found]
    exact ⟨t, p, layered, m.aside rfl rfl⟩
  | some h =>
    have there := at?_eq_some.mp found
    obtain ⟨inner, rfl, -, -⟩ := m.handle i h there
    simp only [step, found, Accessor.observe, layered, Handle.extend_tracked, Provider.inner]
    have leaves := inner.extend_leaves accessor.recording atMost atLeast p
      ⟨(d.stage.store, []), d.stage.events⟩
    revert leaves
    rcases inner.extend accessor.recording atMost atLeast p ⟨(d.stage.store, []), d.stage.events⟩ with
      ⟨⟨_ | _ | _, left, p'⟩, stage⟩
    · rintro ⟨⟩
      exact ⟨t, p', rfl, m.unsettled there rfl (by simp [Entry.ends, Entry.drops, Entry.releases, Entry.loses]) rfl
        rfl id⟩
    · rintro ⟨spent, same⟩
      refine ⟨t.remove i, p', rfl, m.ended there rfl (by simp [Entry.ends, Entry.loses]) rfl ?_⟩
      rintro h' ⟨⟩
      exact ⟨left, rfl, same, spent⟩
    · rintro ⟨active, allowed⟩
      exact ⟨t.update i left.config, p', rfl, m.renewed there active allowed⟩

theorem drop_tracked (tracked : Tracked history d) (i : Nat) :
    Tracked (history ++ [(d.step accessor (.drop i)).1]) (d.step accessor (.drop i)).2 := by
  obtain ⟨t, p, layered, m⟩ := tracked
  cases found : d.at? i with
  | none =>
    simp only [step, found]
    exact ⟨t, p, layered, m.aside rfl rfl⟩
  | some h =>
    have there := at?_eq_some.mp found
    obtain ⟨inner, rfl, -, -⟩ := m.handle i h there
    simp only [step, found, layered]
    exact ⟨t.remove i, (inner.drop accessor p d.stage).1, rfl,
      m.ended there rfl (by simp [Entry.ends, Entry.drops]) rfl (by rintro h' ⟨⟩)⟩

theorem ring_tracked (tracked : Tracked history d) (i : Nat) :
    Tracked (history ++ [(d.step accessor (.ring i)).1]) (d.step accessor (.ring i)).2 := by
  obtain ⟨t, p, layered, m⟩ := tracked
  cases found : d.at? i with
  | none =>
    simp only [step, found]
    exact ⟨t, p, layered, m.aside rfl rfl⟩
  | some h =>
    have there := at?_eq_some.mp found
    obtain ⟨inner, rfl, -, -⟩ := m.handle i h there
    cases rings : (Handle.tracked i inner).due? with
    | none =>
      simp only [step, found, rings]
      exact ⟨t, p, layered, m.aside rfl rfl⟩
    | some due =>
      obtain ⟨same, spent⟩ := inner.ring_leaves accessor.recording due d.timer p
        ⟨(d.stage.store, []), d.stage.events⟩
      simp only [step, found, rings, Accessor.observe, layered]
      exact ⟨t, _, rfl, m.unsettled there rfl (by simp [Entry.ends, Entry.drops, Entry.releases, Entry.loses]) rfl
        same spent⟩

/-- Every act keeps the tracker and the handles in agreement with the history. -/
theorem step_tracked (tracked : Tracked history d) (act : Act σ) :
    Tracked (history ++ [(d.step accessor act).1]) (d.step accessor act).2 := by
  cases act with
  | tryLock config => exact tryLock_tracked accessor tracked config
  | unlock i => exact unlock_tracked accessor tracked i
  | extend i atMost atLeast => exact extend_tracked accessor tracked i atMost atLeast
  | drop i => exact drop_tracked accessor tracked i
  | ring i => exact ring_tracked accessor tracked i
  | pass | others =>
    obtain ⟨t, p, layered, m⟩ := tracked
    exact ⟨t, p, layered, m.aside rfl rfl⟩

/-- So do some acts, one after the other. -/
theorem run_tracked (tracked : Tracked history d) (acts : List (Act σ)) :
    Tracked (history ++ (run accessor acts d).1) (run accessor acts d).2 := by
  induction acts generalizing history d with
  | nil => simpa [run] using tracked
  | cons act rest ih =>
    have later := ih (step_tracked accessor tracked act)
    rw [List.append_assoc] at later
    exact later

end

/-! ## What is listed -/

/-- A tracker lists the handles that stand. -/
structure ListsStanding (history : List Entry) (t : Tracker) : Prop where
  /-- The locks are listed by their names. -/
  sorted : t.activeLocks.Pairwise fun a b => a.name ≤ b.name
  /-- They are the current configurations of the handles that stand, one for each of these handles. -/
  listed : t.activeLocks.Perm ((standing history).filterMap (current history))
  /-- Every handle that stands has a configuration, and it is tracked under the number of the handle. -/
  tracked : ∀ i ∈ standing history, ∃ config, current history i = some config ∧ t.active.get? i = some config
  /-- Nothing else is tracked. -/
  only : ∀ i, i ∉ standing history → t.active.get? i = none
  /-- A lock is found under a name exactly if a handle of that name stands. -/
  found : ∀ name, (t.activeLock? name).isSome = true ↔
    ∃ i ∈ standing history, ∃ config, current history i = some config ∧ config.name = name
  /-- It is the current configuration of such a handle. -/
  shown : ∀ name config, t.activeLock? name = some config →
    config.name = name ∧ ∃ i ∈ standing history, current history i = some config

theorem current_of_standing (stands : i ∈ standing history) : ∃ config, current history i = some config := by
  have given := List.getElem?_eq_getElem (mem_standing.mp stands).1
  exact ⟨_, by rw [current, given]; rfl⟩

namespace Mirrors

variable {t : Tracker} {handles : List (Option Handle)}

theorem get?_eq (m : Mirrors history t handles) (i : Nat) :
    t.active.get? i = if i ∈ standing history then current history i else none := by
  rw [m.active]
  cases gone : history.any (Entry.ends i) with
  | true =>
    have fallen : i ∉ standing history := fun stands => by
      obtain ⟨e, there, ends⟩ := List.any_eq_true.mp gone
      rw [(mem_standing.mp stands).2 e there] at ends
      cases ends
    rw [if_pos rfl, if_neg fallen]
  | false =>
    rw [if_neg Bool.false_ne_true]
    by_cases old : i < (issued history).length
    · have stands : i ∈ standing history := by
        refine mem_standing.mpr ⟨old, fun e there => ?_⟩
        exact Bool.eq_false_iff.mpr (List.any_eq_false.mp gone e there)
      rw [if_pos stands]
    · rw [current_eq_none (Nat.not_lt.mp old)]
      split <;> rfl

theorem listsStanding (m : Mirrors history t handles) : ListsStanding history t := by
  have listed : t.activeLocks.Perm ((standing history).filterMap (current history)) :=
    t.activeLocks_perm.trans (Table.values_perm m.distinct (List.nodup_range.filter _) m.get?_eq)
  have mem_iff {config : LockConfig} :
      config ∈ t.activeLocks ↔ ∃ i ∈ standing history, current history i = some config := by
    rw [listed.mem_iff, List.mem_filterMap]
  refine ⟨t.activeLocks_sorted, listed, ?_, ?_, ?_, ?_⟩
  · intro i stands
    obtain ⟨config, shown⟩ := current_of_standing stands
    exact ⟨config, shown, by rw [m.get?_eq, if_pos stands, shown]⟩
  · intro i fallen
    rw [m.get?_eq, if_neg fallen]
  · intro name
    rw [Tracker.activeLock?_isSome_iff]
    constructor
    · rintro ⟨config, there, named⟩
      obtain ⟨i, stands, shown⟩ := mem_iff.mp there
      exact ⟨i, stands, config, shown, named⟩
    · rintro ⟨i, stands, config, shown, named⟩
      exact ⟨config, mem_iff.mpr ⟨i, stands, shown⟩, named⟩
  · intro name config found
    obtain ⟨there, named⟩ := Tracker.mem_of_activeLock? found
    exact ⟨named, mem_iff.mp there⟩

/-- An act changes what is tracked of a handle only if it ends or renews that handle, or gives it out. -/
theorem get?_after {t t' : Tracker} {handles' : List (Option Handle)} (m : Mirrors history t handles)
    (next : Mirrors (history ++ [entry]) t' handles') (old : i < (issued history).length)
    (ends : entry.ends i = false) (renews : entry.renewal? i = none) :
    t'.active.get? i = t.active.get? i := by
  have same : current (history ++ [entry]) i = current history i := by
    rw [current, current, issued_append, List.getElem?_append_left old, renewals_append_of_none renews]
  rw [next.active, m.active, same, List.any_append, List.any_cons, ends]
  simp

end Mirrors

/-- A tracker that keeps an exact copy of what is known of the handles. -/
structure TracksExactly (accessor : Accessor σ) (history : List Entry) (d : Desk σ) : Prop where
  /-- It lists the handles that stand. -/
  lists : ListsStanding history d.tracker
  /-- A release or an extension that fails keeps every entry as it is. -/
  retained : ∀ act, (d.step accessor act).1.fails = true → ∀ i < (issued history).length,
    (d.step accessor act).2.tracker.active.get? i = d.tracker.active.get? i
  /-- No act touches the entry of a handle that it is not on, whatever the names of the two. -/
  apart : ∀ act, ∀ i < (issued history).length, (d.step accessor act).1.handle? ≠ some i →
    (d.step accessor act).2.tracker.active.get? i = d.tracker.active.get? i
  /-- A handle that was dropped, released or found lost never comes back. -/
  gone : ∀ i, (∃ e ∈ history, e.ends i = true) → ∀ later,
    (run accessor later d).2.tracker.active.get? i = none

theorem ends_of_fails (fails : entry.fails = true) (i : Nat) : entry.ends i = false ∧ entry.renewal? i = none := by
  cases entry with
  | attempted | dropped | rang | nothing => cases fails
  | unlocked j _ answer =>
    rcases answer with e | ⟨⟩
    · exact ⟨rfl, rfl⟩
    · cases fails
  | extended j _ _ _ answer =>
    rcases answer with e | _ | _
    · exact ⟨rfl, rfl⟩
    · cases fails
    · cases fails

theorem Tracked.exact (accessor : Accessor σ) {d : Desk σ} (tracked : Tracked history d) :
    TracksExactly accessor history d := by
  obtain ⟨t, p, layered, m⟩ := id tracked
  have now := tracker_of_tracking layered
  refine ⟨?_, ?_, ?_, ?_⟩
  · rw [now]
    exact m.listsStanding
  · intro act fails i old
    obtain ⟨t', p', layered', m'⟩ := step_tracked accessor tracked act
    obtain ⟨ends, renews⟩ := ends_of_fails fails i
    rw [now, tracker_of_tracking layered']
    exact m.get?_after m' old ends renews
  · intro act i old elsewhere
    obtain ⟨t', p', layered', m'⟩ := step_tracked accessor tracked act
    obtain ⟨ends, renews⟩ := entry_elsewhere elsewhere
    rw [now, tracker_of_tracking layered']
    exact m.get?_after m' old ends renews
  · rintro i ⟨e, there, ends⟩ later
    obtain ⟨t', p', layered', m'⟩ := run_tracked accessor tracked later
    rw [tracker_of_tracking layered', m'.active, if_pos]
    exact List.any_eq_true.mpr ⟨e, List.mem_append_left _ there, ends⟩

end Desk

/-- Whatever the accessor answers and whatever is done with a provider and its handles: the locks that a tracker
lists are the current configurations of the handles that were given out and neither dropped nor released nor found
lost. -/
theorem tracks_standing {σ : Type} (accessor : Accessor σ) (inner : Provider) (store : σ)
    (acts : List (Desk.Act σ)) :
    let last := Desk.run accessor acts (.opened (.tracking {} inner) store)
    Desk.TracksExactly accessor last.1 last.2 := by
  have opened : Desk.Tracked [] (Desk.opened (.tracking {} inner) store) := ⟨{}, inner, rfl, .opened⟩
  exact (Desk.run_tracked accessor opened acts).exact accessor

/-- Two handles of one name: a release of the first one fails, the second one is extended, and then released. -/
example :
    let longer : LockConfig := { LockConfig.nightly with atMost := .ofSeconds 90, atLeast_le_atMost := by decide }
    let accessor : Accessor (List (Except StoreFault Bool)) := .scripted .atomicUpsert
    let answers := [.ok true, .ok true, .error .unavailable, .ok true, .ok true]
    let acts : List (Desk.Act (List (Except StoreFault Bool))) :=
      [.tryLock .nightly, .tryLock .nightly, .unlock 0, .extend 1 longer.atMost longer.atLeast]
    let last := (Desk.run accessor acts (.opened (.tracking {} (.plain .empty)) answers)).2
    last.tracker.active.entries = [(0, .nightly), (1, longer)] ∧
      (last.step accessor (.unlock 1)).2.tracker.active.entries = [(0, .nightly)] := by
  decide +kernel

end TaskLease
