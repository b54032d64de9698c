import Mathlib.Logic.Function.Basic
import NodeProvisioner.Memory.KeyedLock
import NodeProvisioner.Proofs.KeyMap

/-! Callers around a keyed lock. They ask for keys, wait, are let in, let go and give up in any
order; a mutex that is free may be given to any caller in its line. That a mutex has one owner is
in its type, so what is left to show is that a key always leads to the same mutex, and no two keys
to the same one. -/
namespace NodeProvisioner

theorem Mutex.grant?_eq_some {γ : Type} [DecidableEq γ] {m m' : Mutex γ} {c : γ} :
    m.grant? c = some m' ↔
      m.owner = none ∧ c ∈ m.line ∧ m' = { owner := some c, line := m.line.erase c } := by
  simp only [grant?, Option.ite_none_right_eq_some, Option.isNone_iff_eq_none, Option.some.injEq,
    and_assoc]
  exact and_congr_right fun _ => and_congr_right fun _ => eq_comm

namespace KeyedLock
variable {γ : Type} {l : KeyedLock γ} {n k : Nat} {m : Mutex γ} {key other : String}

@[simp] theorem numbers_setMutex : (l.setMutex n m).numbers = l.numbers := rfl

@[simp] theorem length_setMutex : (l.setMutex n m).mutexes.length = l.mutexes.length :=
  List.length_set

@[simp] theorem mutex_setMutex_self (h : n < l.mutexes.length) :
    (l.setMutex n m).mutex n = m := by
  simp [mutex, setMutex, h]

theorem mutex_setMutex_of_ne (h : k ≠ n) : (l.setMutex n m).mutex k = l.mutex k := by
  simp [mutex, setMutex, List.getElem?_set_ne h.symm]

theorem setMutex_mutex (h : n < l.mutexes.length) : l.setMutex n (l.mutex n) = l := by
  simp [mutex, setMutex, h]

/-- Each key has a mutex of its own. -/
structure Numbered (l : KeyedLock γ) : Prop where
  inRange : ∀ key n, l.numbers.get? key = some n → n < l.mutexes.length
  injective : ∀ key other n, l.numbers.get? key = some n → l.numbers.get? other = some n →
    key = other

theorem get?_entry : (l.entry key).2.numbers.get? key = some (l.entry key).1 := by
  unfold entry
  split
  · assumption
  · exact KeyMap.get?_insert_self _ _ _

theorem get?_entry_of_some (h : l.numbers.get? other = some n) :
    (l.entry key).2.numbers.get? other = some n := by
  unfold entry
  split
  · exact h
  · next hnone =>
    have hne : other ≠ key := by
      rintro rfl
      rw [hnone] at h
      cases h
    exact (KeyMap.get?_insert _ _ _ _).trans ((if_neg hne).trans h)

@[simp] theorem mutex_entry : (l.entry key).2.mutex n = l.mutex n := by
  unfold entry
  split
  · rfl
  · rcases Nat.lt_trichotomy n l.mutexes.length with hlt | rfl | hgt
    · simp [mutex, List.getElem?_append_left hlt]
    · simp [mutex]
    · have hold : l.mutexes[n]? = none := List.getElem?_eq_none (Nat.le_of_lt hgt)
      have hnew : (l.mutexes ++ [({} : Mutex γ)])[n]? = none := by
        apply List.getElem?_eq_none
        simpa using Nat.succ_le_of_lt hgt
      simp only [mutex, hold, hnew]

theorem Numbered.entry (h : l.Numbered) (key : String) : (l.entry key).2.Numbered := by
  unfold KeyedLock.entry
  split
  · exact h
  · constructor
    · intro key' n hn
      rw [KeyMap.get?_insert] at hn
      rw [List.length_append, List.length_singleton, Nat.lt_succ_iff]
      split at hn
      · cases hn
        exact Nat.le_refl _
      · exact Nat.le_of_lt (h.inRange key' n hn)
    · intro key' other n hkey hother
      rw [KeyMap.get?_insert] at hkey hother
      split at hkey <;> split at hother
      · next heq heq' => exact heq.trans heq'.symm
      · cases hkey
        exact absurd (h.inRange other _ hother) (Nat.lt_irrefl _)
      · cases hother
        exact absurd (h.inRange key' _ hkey) (Nat.lt_irrefl _)
      · exact h.injective key' other n hkey hother

theorem Numbered.setMutex (h : l.Numbered) (n : Nat) (m : Mutex γ) : (l.setMutex n m).Numbered where
  inRange key k hk := by simpa using h.inRange key k hk
  injective := h.injective

theorem grant?_eq_some [DecidableEq γ] {l' : KeyedLock γ} {c : γ} :
    l.grant? n c = some l' ↔ (l.mutex n).owner = none ∧ c ∈ (l.mutex n).line ∧
      l' = l.setMutex n { owner := some c, line := (l.mutex n).line.erase c } := by
  simp only [grant?, Option.map_eq_some_iff, Mutex.grant?_eq_some]
  constructor
  · rintro ⟨m, ⟨hfree, hline, rfl⟩, rfl⟩
    exact ⟨hfree, hline, rfl⟩
  · rintro ⟨hfree, hline, rfl⟩
    exact ⟨_, ⟨hfree, hline, rfl⟩, rfl⟩

theorem isSome_grant? [DecidableEq γ] {c : γ} :
    (l.grant? n c).isSome ↔ (l.mutex n).owner = none ∧ c ∈ (l.mutex n).line := by
  simp [Option.isSome_iff_exists, grant?_eq_some]

theorem tryTake_iff [DecidableEq γ] {c : γ} (h : (l.entry key).2.Numbered) :
    (l.tryTake key c).1 = true ↔ ((l.entry key).2.mutex (l.entry key).1).owner = none := by
  have hrange := h.inRange key _ get?_entry
  have hgranted : (l.tryTake key c).1 =
      (((l.entry key).2.enter (l.entry key).1 c).grant? (l.entry key).1 c).isSome := by
    unfold tryTake
    dsimp only
    split <;> simp [*]
  rw [hgranted, isSome_grant?, enter, mutex_setMutex_self hrange]
  simp [Mutex.enter]

/-- How far a caller has come. The number is that of the mutex that it has been given. -/
inductive Stage where
  | idle
  | found (key : String) (n : Nat)
  | waiting (key : String) (n : Nat)
  | holding (key : String) (n : Nat)

@[simp] def Stage.place? : Stage → Option (String × Nat)
  | .idle => none
  | .found key n | .waiting key n | .holding key n => some (key, n)

structure Crowd (γ : Type) where
  lock : KeyedLock γ := {}
  stage : γ → Stage := fun _ => .idle

namespace Crowd

def Holds (s : Crowd γ) (c : γ) (key : String) : Prop := ∃ n, s.stage c = .holding key n

structure Sound (s : Crowd γ) : Prop where
  numbered : s.lock.Numbered
  place : ∀ c key n, (s.stage c).place? = some (key, n) → s.lock.numbers.get? key = some n
  owner : ∀ c n, (s.lock.mutex n).owner = some c ↔ ∃ key, s.stage c = .holding key n
  line : ∀ c key n, s.stage c = .waiting key n → c ∈ (s.lock.mutex n).line

variable {s s' : Crowd γ} {c c' : γ} {key : String} {n : Nat} {lock : KeyedLock γ} {m : Mutex γ}
  {stage : Stage}

theorem sound_start : Sound ({} : Crowd γ) where
  numbered := ⟨nofun, nofun⟩
  place := nofun
  owner c n := by simp [mutex]
  line := nofun

theorem Sound.entry (h : s.Sound) (key : String) :
    Sound { s with lock := (s.lock.entry key).2 } where
  numbered := h.numbered.entry key
  place c other n hplace := get?_entry_of_some (h.place c other n hplace)
  owner c n := by simpa using h.owner c n
  line c other n hwaiting := by simpa using h.line c other n hwaiting

theorem Sound.free_iff (h : s.Sound) (hkey : s.lock.numbers.get? key = some n) :
    (s.lock.mutex n).owner = none ↔ ∀ c, ¬ s.Holds c key := by
  rw [Option.eq_none_iff_forall_ne_some]
  constructor
  · rintro hfree c ⟨k, hk⟩
    have hsame : k = n := Option.some.inj ((h.place c key k (by rw [hk]; rfl)).symm.trans hkey)
    exact hfree c ((h.owner c n).2 ⟨key, hsame ▸ hk⟩)
  · intro hfree c howner
    obtain ⟨other, hother⟩ := (h.owner c n).1 howner
    have hsame := h.numbered.injective other key n (h.place c other n (by rw [hother]; rfl)) hkey
    exact hfree c ⟨n, hsame ▸ hother⟩

theorem Sound.not_owner (h : s.Sound) (hheld : ∀ key, s.stage c ≠ .holding key n) :
    (s.lock.mutex n).owner ≠ some c := by
  intro howner
  obtain ⟨key, hholding⟩ := (h.owner c n).1 howner
  exact hheld key hholding

theorem Sound.sole (h : s.Sound) (hc : s.Holds c key) (hc' : s.Holds c' key) : c = c' := by
  obtain ⟨n, hn⟩ := hc
  obtain ⟨n', hn'⟩ := hc'
  have hkey := h.place c key n (by rw [hn]; rfl)
  obtain rfl : n' = n := Option.some.inj ((h.place c' key n' (by rw [hn']; rfl)).symm.trans hkey)
  have howner := (h.owner c n').2 ⟨key, hn⟩
  exact Option.some.inj (howner.symm.trans ((h.owner c' n').2 ⟨key, hn'⟩))

variable [DecidableEq γ]

def move (s : Crowd γ) (c : γ) (lock : KeyedLock γ) (stage : Stage) : Crowd γ where
  lock := lock
  stage := Function.update s.stage c stage

@[simp] theorem lock_move : (s.move c lock stage).lock = lock := rfl

@[simp] theorem stage_move_self : (s.move c lock stage).stage c = stage :=
  Function.update_self _ _ _

theorem stage_move_of_ne (h : c' ≠ c) : (s.move c lock stage).stage c' = s.stage c' :=
  Function.update_of_ne h _ _

/-- What a caller can do next. Whoever has not come into line yet can give up without a trace. -/
inductive Step (s : Crowd γ) (c : γ) : Crowd γ → Prop where
  | ask (key : String) (h : s.stage c = .idle) :
      Step s c (s.move c (s.lock.entry key).2 (.found key (s.lock.entry key).1))
  | enter {key : String} {n : Nat} (h : s.stage c = .found key n) :
      Step s c (s.move c (s.lock.enter n c) (.waiting key n))
  | grant {key : String} {n : Nat} {lock : KeyedLock γ} (h : s.stage c = .waiting key n)
      (hlock : s.lock.grant? n c = some lock) : Step s c (s.move c lock (.holding key n))
  | drop {key : String} {n : Nat} (h : s.stage c = .holding key n) :
      Step s c (s.move c (s.lock.release n) .idle)
  | turnBack {key : String} {n : Nat} (h : s.stage c = .found key n) :
      Step s c (s.move c s.lock .idle)
  | abandon {key : String} {n : Nat} (h : s.stage c = .waiting key n) :
      Step s c (s.move c (s.lock.leave n c) .idle)

inductive Reached : Crowd γ → Prop where
  | start : Reached {}
  | step {s s' : Crowd γ} {c : γ} (h : Reached s) (hstep : Step s c s') : Reached s'

inductive Alone (c : γ) : Crowd γ → Crowd γ → Prop where
  | refl (s : Crowd γ) : Alone c s s
  | step {s s' s'' : Crowd γ} (h : Step s c s') (rest : Alone c s' s'') : Alone c s s''

theorem Sound.move (h : s.Sound) (hkey : s.lock.numbers.get? key = some n)
    (hplace : ∀ place, (s.stage c).place? = some place → place = (key, n))
    (hstage : ∀ place, stage.place? = some place → place = (key, n))
    (howner : m.owner = some c ↔ stage = .holding key n)
    (howners : ∀ c', c' ≠ c → (m.owner = some c' ↔ (s.lock.mutex n).owner = some c'))
    (hline : stage = .waiting key n → c ∈ m.line)
    (hlines : ∀ c', c' ≠ c → c' ∈ (s.lock.mutex n).line → c' ∈ m.line) :
    (s.move c (s.lock.setMutex n m) stage).Sound := by
  have hrange := h.numbered.inRange key n hkey
  constructor
  case numbered => exact h.numbered.setMutex n m
  case place =>
    intro c' key' k hk
    by_cases hc : c' = c
    · rw [hc, stage_move_self] at hk
      cases hstage _ hk
      exact hkey
    · rw [stage_move_of_ne hc] at hk
      exact h.place c' key' k hk
  case owner =>
    intro c' k
    rw [lock_move]
    by_cases hk : k = n
    · rw [hk, mutex_setMutex_self hrange]
      by_cases hc : c' = c
      · rw [hc, stage_move_self, howner]
        refine ⟨fun hholding => ⟨key, hholding⟩, ?_⟩
        rintro ⟨key', rfl⟩
        cases hstage _ rfl
        rfl
      · rw [stage_move_of_ne hc, howners c' hc, h.owner]
    · rw [mutex_setMutex_of_ne hk, h.owner]
      by_cases hc : c' = c
      · rw [hc, stage_move_self]
        constructor
        · rintro ⟨key', hholding⟩
          rw [hholding] at hplace
          cases hplace _ rfl
          exact absurd rfl hk
        · rintro ⟨key', rfl⟩
          cases hstage _ rfl
          exact absurd rfl hk
      · rw [stage_move_of_ne hc]
  case line =>
    intro c' key' k hwaiting
    rw [lock_move]
    by_cases hc : c' = c
    · rw [hc, stage_move_self] at hwaiting
      subst hwaiting
      cases hstage _ rfl
      rw [hc, mutex_setMutex_self hrange]
      exact hline rfl
    · rw [stage_move_of_ne hc] at hwaiting
      have hold := h.line c' key' k hwaiting
      by_cases hk : k = n
      · rw [hk] at hold ⊢
        rw [mutex_setMutex_self hrange]
        exact hlines c' hc hold
      · rw [mutex_setMutex_of_ne hk]
        exact hold

/-- A move neither to a guard nor from one leaves the mutex to its owner. -/
theorem Sound.pass (h : s.Sound) (hkey : s.lock.numbers.get? key = some n)
    (hplace : ∀ place, (s.stage c).place? = some place → place = (key, n))
    (hstage : ∀ place, stage.place? = some place → place = (key, n))
    (hbefore : ∀ key, s.stage c ≠ .holding key n) (hafter : stage ≠ .holding key n)
    (howner : m.owner = (s.lock.mutex n).owner) (hline : stage = .waiting key n → c ∈ m.line)
    (hlines : ∀ c', c' ≠ c → c' ∈ (s.lock.mutex n).line → c' ∈ m.line) :
    (s.move c (s.lock.setMutex n m) stage).Sound := by
  refine h.move hkey hplace hstage ?_ ?_ hline hlines
  · rw [howner]
    exact iff_of_false (h.not_owner hbefore) hafter
  · intro c' _
    rw [howner]

theorem Step.sound (hstep : Step s c s') (h : s.Sound) : s'.Sound := by
  cases hstep with
  | ask key hidle =>
    have hentry := h.entry key
    have hrange : (s.lock.entry key).1 < (s.lock.entry key).2.mutexes.length :=
      hentry.numbered.inRange key _ get?_entry
    rw [← setMutex_mutex hrange]
    exact hentry.pass get?_entry (by simp [hidle]) (by simp) (by simp [hidle]) (by simp) rfl
      (by simp) fun _ _ hmem => hmem
  | @enter key n hfound =>
    have hkey := h.place c key n (by simp [hfound])
    exact h.pass hkey (by simp [hfound]) (by simp) (by simp [hfound]) (by simp) rfl
      (by simp [Mutex.enter]) fun _ _ hmem => List.mem_append_left _ hmem
  | @grant key n lock hwaiting hlock =>
    obtain ⟨hfree, -, rfl⟩ := grant?_eq_some.1 hlock
    have hkey := h.place c key n (by simp [hwaiting])
    refine h.move hkey (by simp [hwaiting]) (by simp) (by simp) ?_ (by simp) ?_
    · intro c' hc
      simp [hfree, Ne.symm hc]
    · exact fun c' hc hmem => (List.mem_erase_of_ne hc).2 hmem
  | @drop key n hholding =>
    have hkey := h.place c key n (by simp [hholding])
    have howner := (h.owner c n).2 ⟨key, hholding⟩
    refine h.move hkey (by simp [hholding]) (by simp) (by simp [Mutex.release]) ?_ (by simp) ?_
    · intro c' hc
      simp [Mutex.release, howner, Ne.symm hc]
    · exact fun _ _ hmem => hmem
  | @turnBack key n hfound =>
    have hkey := h.place c key n (by simp [hfound])
    rw [← setMutex_mutex (h.numbered.inRange key n hkey)]
    exact h.pass hkey (by simp [hfound]) (by simp) (by simp [hfound]) (by simp) rfl (by simp)
      fun _ _ hmem => hmem
  | @abandon key n hwaiting =>
    have hkey := h.place c key n (by simp [hwaiting])
    exact h.pass hkey (by simp [hwaiting]) (by simp) (by simp [hwaiting]) (by simp) rfl (by simp)
      fun _ hc hmem => (List.mem_erase_of_ne hc).2 hmem

theorem Reached.sound (h : Reached s) : s.Sound := by
  induction h with
  | start => exact sound_start
  | step _ hstep ih => exact hstep.sound ih

theorem Step.stage_of_ne (hstep : Step s c s') (hne : c' ≠ c) : s'.stage c' = s.stage c' := by
  cases hstep <;> exact stage_move_of_ne hne

theorem Alone.stage_of_ne (h : Alone c s s') (hne : c' ≠ c) : s'.stage c' = s.stage c' := by
  induction h with
  | refl => rfl
  | step hstep _ ih => exact ih.trans (hstep.stage_of_ne hne)

def Asks (s : Crowd γ) (c : γ) (key : String) : Prop :=
  ∃ n, s.stage c = .found key n ∨ s.stage c = .waiting key n

theorem not_holds_move (hfree : ∀ c, ¬ s.Holds c key) (hstage : ∀ n, stage ≠ .holding key n) :
    ∀ c', ¬ (s.move c lock stage).Holds c' key := by
  rintro c' ⟨n, hn⟩
  by_cases hc : c' = c
  · rw [hc, stage_move_self] at hn
    exact hstage n hn
  · rw [stage_move_of_ne hc] at hn
    exact hfree c' ⟨n, hn⟩

theorem Sound.goesOn_of_waiting (h : s.Sound) (hwaiting : s.stage c = .waiting key n)
    (hfree : ∀ c', ¬ s.Holds c' key) : ∃ s', Alone c s s' ∧ s'.Holds c key := by
  have howner := (h.free_iff (h.place c key n (by simp [hwaiting]))).2 hfree
  have hlock := grant?_eq_some.2 ⟨howner, h.line c key n hwaiting, rfl⟩
  exact ⟨_, .step (.grant hwaiting hlock) (.refl _), n, stage_move_self⟩

theorem Sound.goesOn_of_found (h : s.Sound) (hfound : s.stage c = .found key n)
    (hfree : ∀ c', ¬ s.Holds c' key) : ∃ s', Alone c s s' ∧ s'.Holds c key := by
  have hstep := Step.enter hfound
  obtain ⟨s', halone, hholds⟩ := (hstep.sound h).goesOn_of_waiting stage_move_self
    (not_holds_move hfree (by simp))
  exact ⟨s', .step hstep halone, hholds⟩

theorem Sound.goesOn_of_idle (h : s.Sound) (hidle : s.stage c = .idle)
    (hfree : ∀ c', ¬ s.Holds c' key) : ∃ s', Alone c s s' ∧ s'.Holds c key := by
  have hstep := Step.ask key hidle
  obtain ⟨s', halone, hholds⟩ := (hstep.sound h).goesOn_of_found stage_move_self
    (not_holds_move hfree (by simp))
  exact ⟨s', .step hstep halone, hholds⟩

/-- At most one live guard for each key, and no key waits for another. -/
structure Exclusive (s : Crowd γ) : Prop where
  sole : ∀ c c' key, s.Holds c key → s.Holds c' key → c = c'
  /-- Whoever asks or might ask for a key without a live guard gets it by steps of its own. -/
  goesOn : ∀ c key, s.stage c = .idle ∨ s.Asks c key → (∀ c', ¬ s.Holds c' key) →
    ∃ s', Alone c s s' ∧ s'.Holds c key ∧ ∀ c', c' ≠ c → s'.stage c' = s.stage c'
  tryTake_iff : ∀ c key, (s.lock.tryTake key c).1 = true ↔ ∀ c', ¬ s.Holds c' key

theorem exclusive_of_reached : ∀ s : Crowd γ, Reached s → s.Exclusive := by
  intro s hreached
  have h := hreached.sound
  constructor
  case sole => exact fun _ _ _ => h.sole
  case goesOn =>
    intro c key hstage hfree
    have hgoesOn : ∃ s', Alone c s s' ∧ s'.Holds c key := by
      rcases hstage with hidle | ⟨n, hfound | hwaiting⟩
      · exact h.goesOn_of_idle hidle hfree
      · exact h.goesOn_of_found hfound hfree
      · exact h.goesOn_of_waiting hwaiting hfree
    obtain ⟨s', halone, hholds⟩ := hgoesOn
    exact ⟨s', halone, hholds, fun _ hne => halone.stage_of_ne hne⟩
  case tryTake_iff =>
    intro c key
    have hentry := h.entry key
    rw [KeyedLock.tryTake_iff hentry.numbered]
    exact hentry.free_iff get?_entry

/-- One caller holds a key, a second one waits for it, and a third one gets another key. -/
theorem exclusive_of_reached_contended : ∃ s : Crowd Nat, Reached s ∧
    s.Holds 0 "pve-1" ∧ s.Asks 1 "pve-1" ∧ (s.lock.tryTake "pve-1" 2).1 = false ∧
    ∃ s', Alone 2 s s' ∧ s'.Holds 2 "pve-2" ∧ s'.Holds 0 "pve-1" := by
  have hasked : Reached (γ := Nat) _ :=
    .step (.step .start (.ask (c := 0) "pve-1" rfl)) (.ask (c := 1) "pve-1" rfl)
  have hqueued := Reached.step (.step hasked (.enter (c := 1) rfl)) (.enter (c := 0) rfl)
  obtain ⟨s, hreached, hholds, hasks, hidle, hunused⟩ : ∃ s : Crowd Nat, Reached s ∧
      s.Holds 0 "pve-1" ∧ s.Asks 1 "pve-1" ∧ s.stage 2 = .idle ∧
      s.lock.numbers.get? "pve-2" = none :=
    ⟨_, hqueued.step (.grant (c := 0) rfl rfl), ⟨0, rfl⟩, ⟨0, .inr rfl⟩, rfl, rfl⟩
  have hexclusive := exclusive_of_reached s hreached
  have hfree : ∀ c, ¬ s.Holds c "pve-2" := by
    rintro c ⟨n, hn⟩
    have hkey := hreached.sound.place c "pve-2" n (by simp [hn])
    cases hunused.symm.trans hkey
  obtain ⟨s', halone, hother, hkept⟩ := hexclusive.goesOn 2 "pve-2" (.inl hidle) hfree
  refine ⟨s, hreached, hholds, hasks, ?_, s', halone, hother, ?_⟩
  · exact Bool.eq_false_iff.2 fun htaken => (hexclusive.tryTake_iff 2 "pve-1").1 htaken 0 hholds
  · exact hholds.imp fun _ hstage => (hkept 0 (by decide)).trans hstage

end Crowd

end KeyedLock
end NodeProvisioner
