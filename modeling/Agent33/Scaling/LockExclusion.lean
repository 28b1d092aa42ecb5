import Agent33.Scaling.DistributedLock

/-!
# Mutual exclusion of locks by name

On Redis a held object has its key, or a release of it has deleted the key and has not
returned yet. Without Redis every object has an `asyncio.Lock` of its own.
-/

namespace Agent33.Scaling

open Library List Option DistributedLock

namespace LockSystem

variable (s : LockSystem)

def Rivals (o p : ℕ) : Prop :=
  o ≠ p ∧ ∃ lock ∈ s.locks[o]?, ∃ lock' ∈ s.locks[p]?,
    lock.lockName = lock'.lockName ∧ lock.onRedis = lock'.onRedis

def Held (o : ℕ) : Prop := ∃ lock ∈ s.locks[o]?, lock.isHeld = true

instance (s : LockSystem) (o p : ℕ) : Decidable (s.Rivals o p) :=
  inferInstanceAs (Decidable (o ≠ p ∧ ∃ lock ∈ s.locks[o]?, ∃ lock' ∈ s.locks[p]?,
    lock.lockName = lock'.lockName ∧ lock.onRedis = lock'.onRedis))

instance (s : LockSystem) (o : ℕ) : Decidable (s.Held o) :=
  inferInstanceAs (Decidable (∃ lock ∈ s.locks[o]?, lock.isHeld = true))

def Exclusive : Prop := ∀ o p, s.Rivals o p → ¬(s.Held o ∧ s.Held p)

/-- The key of the object has a token that the object drew, or its `asyncio.Lock` is locked. -/
def Secured (o : ℕ) : Prop :=
  (∃ (lock : RedisDistributedLock) (t : Token) (phase : AcquirePhase),
    s.locks[o]? = some (.redis lock) ∧ s.store.get? lock.key = some t ∧
      s.acquires[t]? = some ⟨o, phase⟩) ∨
  ∃ lock : InProcessLock, s.locks[o]? = some (.inProcess lock) ∧ lock.locked = true

structure Guarded (s : LockSystem) (e : Step) : Prop where
  notHeld : ∀ {o : ℕ} {lock : DistributedLock}, e = .release o → s.locks[o]? = some lock →
    lock.isHeld = false →
      s.next e = { s with releases := s.releases ++ [⟨o, .returned false⟩] }
  others : ∀ {p : ℕ}, s.caller e ≠ some p → s.Secured p → (s.next e).Secured p
  secured : ∀ {p : ℕ}, s.Held p → s.Secured p ∨ ⟨p, .evaluated true⟩ ∈ s.releases

/-- The object that gets its key or its `asyncio.Lock` in the step. -/
def entering : Step → Option ℕ
  | .setNx t =>
    match s.acquires[t]? with
    | some ⟨o, .setting _ _⟩ =>
      match s.locks[o]? with
      | some (.redis lock) => if (s.store.get? lock.key).isSome then none else some o
      | _ => none
    | _ => none
  | .takeLock t =>
    match s.acquires[t]? with
    | some ⟨o, .locking _⟩ =>
      match s.locks[o]? with
      | some (.inProcess lock) => if lock.locked then none else some o
      | _ => none
    | _ => none
  | _ => none

/-- No other object of the name has a locked `asyncio.Lock`, or is held on Redis while a
release of it has deleted the key and has not returned. -/
def Alone (o : ℕ) : Prop :=
  ∀ p < s.locks.length, s.Rivals o p →
    (s.Held p → ⟨p, .evaluated true⟩ ∉ s.releases) ∧
      ∀ lock ∈ s.locks[p]?, lock.isLocked = false

instance (s : LockSystem) (o : ℕ) : Decidable (s.Alone o) :=
  inferInstanceAs (Decidable (∀ p < s.locks.length, s.Rivals o p →
    (s.Held p → ⟨p, .evaluated true⟩ ∉ s.releases) ∧
      ∀ lock ∈ s.locks[p]?, lock.isLocked = false))

def Undisputed (e : Step) : Prop := ∀ o ∈ s.entering e, s.Alone o

instance (s : LockSystem) (e : Step) : Decidable (s.Undisputed e) :=
  inferInstanceAs (Decidable (∀ o ∈ s.entering e, s.Alone o))

def Engaged (o : ℕ) : Prop :=
  s.Held o ∨ (∃ (t : Token) (deadline backoff : ℚ),
    s.acquires[t]? = some ⟨o, .answered deadline backoff true⟩) ∨
      ∃ t : Token, s.acquires[t]? = some ⟨o, .locked⟩

structure Sound (s : LockSystem) : Prop where
  acquired : ∀ {o : ℕ} {lock : RedisDistributedLock} {t : Token},
    s.locks[o]? = some (.redis lock) → lock.token = some t →
    s.acquires[t]? = some ⟨o, .returned true⟩
  deleting : ∀ {n o : ℕ} {t : Token}, s.releases[n]? = some ⟨o, .evaluating t⟩ →
    s.acquires[t]? = some ⟨o, .returned true⟩
  granted : ∀ {t : Token} {o : ℕ} {deadline backoff : ℚ},
    s.acquires[t]? = some ⟨o, .answered deadline backoff true⟩ →
    ∃ lock, s.locks[o]? = some (.redis lock) ∧ s.store.get? lock.key = some t
  stored : ∀ {o : ℕ} {lock : RedisDistributedLock} {t : Token},
    s.locks[o]? = some (.redis lock) → lock.token = some t →
    s.store.get? lock.key = some t ∨ ⟨o, .evaluated true⟩ ∈ s.releases
  taken : ∀ {t : Token} {o : ℕ}, s.acquires[t]? = some ⟨o, .locked⟩ →
    ∃ lock, s.locks[o]? = some (.inProcess lock) ∧ lock.locked = true ∧ lock.held = false
  alone : ∀ {t t' : Token} {o : ℕ}, s.acquires[t]? = some ⟨o, .locked⟩ →
    s.acquires[t']? = some ⟨o, .locked⟩ → t = t'
  held : ∀ {o : ℕ} {lock : InProcessLock}, s.locks[o]? = some (.inProcess lock) →
    lock.held = true → lock.locked = true

theorem mem_set_of_ne {α : Type*} {l : List α} {n : ℕ} {x y z : α} (hx : x ∈ l)
    (hn : l[n]? = some y) (hne : x ≠ y) : x ∈ l.set n z := by
  obtain ⟨m, hm⟩ := mem_iff_getElem?.mp hx
  refine mem_iff_getElem?.mpr ⟨m, ?_⟩
  rw [getElem?_set_ne, hm]
  rintro rfl
  exact hne (some.inj (hm.symm.trans hn))

variable {s s' : LockSystem} {e : Step} {o p : ℕ}

theorem sound_change (hs : s.Sound) (h : Change s e s') : s'.Sound := by
  have hacquired := @hs.acquired
  have hdeleting := @hs.deleting
  have hgranted := @hs.granted
  have hstored := @hs.stored
  have htaken := @hs.taken
  cases h with
  | refused e => exact hs
  | created name redis =>
    exact { hs with
      acquired := by grind [createLock]
      granted := by grind
      stored := by grind [createLock]
      taken := by grind
      held := by grind [createLock, hs.held] }
  | called he hphase =>
    exact { hs with
      acquired := by grind
      deleting := by grind
      granted := by grind [AcquirePhase.Waits]
      taken := by grind [AcquirePhase.Waits]
      alone := by grind [AcquirePhase.Waits, hs.alone] }
  | waits he ht hphase hphase' =>
    exact { hs with
      acquired := by grind [acquireGoes]
      deleting := by grind [acquireGoes]
      granted := by grind [acquireGoes, AcquirePhase.Waits]
      taken := by grind [acquireGoes, AcquirePhase.Waits]
      alone := by grind [acquireGoes, AcquirePhase.Waits, hs.alone] }
  | granted ht ho hfree =>
    exact { hs with
      acquired := by grind [acquireGoes]
      deleting := by grind [acquireGoes]
      granted := by grind [acquireGoes, Dict.get?_set]
      stored := by grind [acquireGoes, Dict.get?_set]
      taken := by grind [acquireGoes]
      alone := by grind [acquireGoes, hs.alone] }
  | acquired he ht ho =>
    exact {
      acquired := by grind [acquireGoes, setLock]
      deleting := by grind [acquireGoes, setLock]
      granted := by grind [acquireGoes, setLock, RedisDistributedLock.key]
      stored := by grind [acquireGoes, setLock, RedisDistributedLock.key]
      taken := by grind [acquireGoes, setLock]
      alone := by grind [acquireGoes, setLock, hs.alone]
      held := by grind [acquireGoes, setLock, hs.held] }
  | taken ht ho hfree =>
    exact {
      acquired := by grind [acquireGoes, setLock]
      deleting := by grind [acquireGoes, setLock]
      granted := by grind [acquireGoes, setLock]
      stored := by grind [acquireGoes, setLock]
      taken := by grind [acquireGoes, setLock, hs.held]
      alone := by grind [acquireGoes, setLock, hs.alone]
      held := by grind [acquireGoes, setLock, hs.held] }
  | held he ht ho =>
    exact {
      acquired := by grind [acquireGoes, setLock]
      deleting := by grind [acquireGoes, setLock]
      granted := by grind [acquireGoes, setLock]
      stored := by grind [acquireGoes, setLock]
      taken := by grind [acquireGoes, setLock, hs.alone]
      alone := by grind [acquireGoes, setLock, hs.alone]
      held := by grind [acquireGoes, setLock, hs.held] }
  | notHeld he =>
    exact { hs with
      deleting := by grind
      stored := by grind }
  | unlocked he ho hheld =>
    exact {
      acquired := by grind [setLock]
      deleting := by grind [setLock]
      granted := by grind [setLock]
      stored := by grind [setLock]
      taken := by grind [setLock]
      alone := hs.alone
      held := by grind [setLock, hs.held] }
  | releasing he ho htoken =>
    exact { hs with
      deleting := by grind
      stored := by grind }
  | deleted he hn ho hkey =>
    exact { hs with
      deleting := by grind [releaseGoes]
      granted := by grind [releaseGoes, Dict.get?_erase]
      stored := by grind [releaseGoes, Dict.get?_erase, mem_set_of_ne, mem_set] }
  | mismatch he hn =>
    exact { hs with
      deleting := by grind [releaseGoes]
      stored := by grind [releaseGoes, mem_set_of_ne] }
  | released result he hn ho =>
    exact {
      acquired := by grind [releaseGoes, setLock]
      deleting := by grind [releaseGoes, setLock]
      granted := by grind [releaseGoes, setLock, RedisDistributedLock.key]
      stored := by grind [releaseGoes, setLock, mem_set_of_ne]
      taken := by grind [releaseGoes, setLock]
      alone := hs.alone
      held := by grind [releaseGoes, setLock, hs.held] }

theorem entering_granted (ht : s.acquires[t]? = some ⟨o, .setting deadline backoff⟩)
    (ho : s.locks[o]? = some (.redis lock)) (hfree : s.store.get? lock.key = none) :
    s.entering (.setNx t) = some o := by
  simp [entering, ht, ho, hfree]

theorem entering_taken
    (ht : s.acquires[t]? = some ⟨o, .locking deadline⟩) (ho : s.locks[o]? = some (.inProcess lock))
    (hfree : lock.locked = false) : s.entering (.takeLock t) = some o := by
  simp [entering, ht, ho, hfree]

theorem engaged_change (hs : s.Sound) (h : Change s e s') (hp : s'.Engaged p) :
    s.Engaged p ∨ s.entering e = some p := by
  have hgranted := @hs.granted
  have htaken := @hs.taken
  unfold Engaged Held at *
  cases h with
  | refused e => exact .inl hp
  | created name redis =>
    left
    grind [createLock, isHeld]
  | called he hphase => grind [AcquirePhase.Waits]
  | waits he ht hphase hphase' => grind [AcquirePhase.Waits, acquireGoes]
  | granted ht ho hfree => grind [acquireGoes, entering_granted]
  | acquired he ht ho => grind [acquireGoes, setLock]
  | taken ht ho hfree => grind [acquireGoes, setLock, entering_taken, isHeld]
  | held he ht ho => grind [acquireGoes, setLock]
  | notHeld he => exact .inl hp
  | unlocked he ho hheld => grind [setLock, isHeld]
  | releasing he ho htoken => exact .inl hp
  | deleted he hn ho hkey => exact .inl hp
  | mismatch he hn => exact .inl hp
  | released result he hn ho => grind [releaseGoes, setLock, isHeld]

theorem Held.secured (hs : s.Sound) (h : s.Held p) :
    s.Secured p ∨ ⟨p, .evaluated true⟩ ∈ s.releases := by
  obtain ⟨lock, hlock, hheld⟩ := h
  cases lock with
  | redis lock =>
    obtain ⟨t, ht⟩ := Option.isSome_iff_exists.mp hheld
    rcases hs.stored hlock ht with hstored | hdeleted
    · exact .inl (.inl ⟨lock, t, _, hlock, hstored, hs.acquired hlock ht⟩)
    · exact .inr hdeleted
  | inProcess lock => exact .inl (.inr ⟨lock, hlock, hs.held hlock hheld⟩)

theorem secured_change (hs : s.Sound) (h : Change s e s') (he : s.caller e ≠ some p)
    (hp : s.Secured p) : s'.Secured p := by
  have hdeleting := @hs.deleting
  unfold Secured at *
  cases h with
  | refused e => exact hp
  | created name redis => grind
  | called he' hphase => grind
  | waits he' ht hphase hphase' => grind [acquireGoes]
  | granted ht ho hfree => grind [acquireGoes, caller, Dict.get?_set]
  | acquired he' ht ho => grind [acquireGoes, setLock]
  | taken ht ho hfree => grind [acquireGoes, setLock, caller]
  | held he' ht ho => grind [acquireGoes, setLock]
  | notHeld he' => exact hp
  | unlocked he' ho hheld => grind [setLock]
  | releasing he' ho htoken => exact hp
  | deleted he' hn ho hkey => grind [releaseGoes, Dict.get?_erase]
  | mismatch he' hn => exact hp
  | released result he' hn ho => grind [releaseGoes, setLock]

theorem Rivals.symm (h : s.Rivals o p) : s.Rivals p o := by
  obtain ⟨hne, lock, ho, lock', hp, hname, hbackend⟩ := h
  exact ⟨hne.symm, lock', hp, lock, ho, hname.symm, hbackend.symm⟩

def Alike (lock lock' : DistributedLock) : Prop :=
  lock.lockName = lock'.lockName ∧ lock.onRedis = lock'.onRedis

theorem alike_setLock (hold : s.locks[o]? = some old)
    (h : (s.setLock o new).locks[p]? = some lock) (halike : Alike old new) :
    ∃ lock' ∈ s.locks[p]?, Alike lock' lock := by
  rw [setLock, getElem?_set] at h
  split_ifs at h with hop hlt
  · obtain rfl := hop
    obtain rfl := some.inj h
    exact ⟨old, hold, halike⟩
  · exact ⟨lock, h, rfl, rfl⟩

theorem alike_change (h : Change s e s') (hp : p < s.locks.length)
    (hlock : s'.locks[p]? = some lock) : ∃ lock' ∈ s.locks[p]?, Alike lock' lock := by
  cases h with
  | created name redis =>
    rw [getElem?_append_left hp] at hlock
    exact ⟨lock, hlock, rfl, rfl⟩
  | acquired he ht ho => exact alike_setLock ho hlock ⟨rfl, rfl⟩
  | taken ht ho hfree => exact alike_setLock ho hlock ⟨rfl, rfl⟩
  | held he ht ho => exact alike_setLock ho hlock ⟨rfl, rfl⟩
  | unlocked he ho hheld => exact alike_setLock ho hlock ⟨rfl, rfl⟩
  | released result he hn ho => exact alike_setLock ho hlock ⟨rfl, rfl⟩
  | _ => exact ⟨lock, hlock, rfl, rfl⟩

theorem Rivals.before (h : Change s e s') (ho : o < s.locks.length) (hp : p < s.locks.length)
    (hr : s'.Rivals o p) : s.Rivals o p := by
  obtain ⟨hne, lock, hlock, lock', hlock', hname, hbackend⟩ := hr
  obtain ⟨old, hold, halike⟩ := alike_change h ho hlock
  obtain ⟨old', hold', halike'⟩ := alike_change h hp hlock'
  exact ⟨hne, old, hold, old', hold', halike.1.trans (hname.trans halike'.1.symm),
    halike.2.trans (hbackend.trans halike'.2.symm)⟩

theorem Engaged.lt (hs : s.Sound) (h : s.Engaged o) : o < s.locks.length := by
  have hlt {lock : DistributedLock} (ho : s.locks[o]? = some lock) : o < s.locks.length :=
    (List.getElem?_eq_some_iff.mp ho).1
  rcases h with ⟨lock, ho, _⟩ | ⟨t, deadline, backoff, ht⟩ | ⟨t, ht⟩
  · exact hlt ho
  · obtain ⟨lock, ho, _⟩ := hs.granted ht
    exact hlt ho
  · obtain ⟨lock, ho, _⟩ := hs.taken ht
    exact hlt ho

theorem entering_cases (he : s.entering e = some o) :
    (∃ lock, s.locks[o]? = some (.redis lock) ∧ s.store.get? lock.key = none) ∨
      ∃ lock, s.locks[o]? = some (.inProcess lock) := by
  unfold entering at he
  split at he
  case h_1 =>
    split at he
    case h_2 => cases he
    split at he
    case h_2 => cases he
    case h_1 lock hlock =>
      split_ifs at he with hfree
      obtain rfl := some.inj he
      exact .inl ⟨lock, hlock, by simpa using hfree⟩
  case h_2 =>
    split at he
    case h_2 => cases he
    split at he
    case h_2 => cases he
    case h_1 lock hlock =>
      split_ifs at he
      obtain rfl := some.inj he
      exact .inr ⟨lock, hlock⟩
  case h_3 => cases he

/-- What gets a lock alone finds no rival engaged: a rival would have the key or its own
`asyncio.Lock`. -/
theorem not_engaged_of_entering (hs : s.Sound) (he : s.entering e = some o) (halone : s.Alone o)
    (hr : s.Rivals o p) : ¬s.Engaged p := by
  intro hp
  obtain ⟨hdeleted, hunlocked⟩ := halone p (hp.lt hs) hr
  obtain ⟨hne, lock, hlock, lock', hlock', hname, hbackend⟩ := hr
  cases lock' with
  | redis lock' =>
    cases lock with
    | inProcess lock => cases hbackend
    | redis lock =>
      have hkey : lock.key = lock'.key := congrArg (redisLockPrefix ++ ·) hname
      have hfree : s.store.get? lock'.key = none := by
        rcases entering_cases he with ⟨lock₁, hlock₁, hfree⟩ | ⟨lock₁, hlock₁⟩
        · obtain rfl := redis.inj (some.inj (hlock.symm.trans hlock₁))
          exact hkey ▸ hfree
        · cases hlock.symm.trans hlock₁
      rcases hp with hheld | ⟨t, deadline, backoff, ht⟩ | ⟨t, ht⟩
      · obtain ⟨lock₁, hlock₁, hheld'⟩ := id hheld
        obtain rfl := some.inj (hlock'.symm.trans hlock₁)
        obtain ⟨t, ht⟩ := Option.isSome_iff_exists.mp hheld'
        rcases hs.stored hlock' ht with hstored | hmem
        · rw [hfree] at hstored
          cases hstored
        · exact hdeleted hheld hmem
      · obtain ⟨lock₁, hlock₁, hstored⟩ := hs.granted ht
        obtain rfl := redis.inj (some.inj (hlock'.symm.trans hlock₁))
        rw [hfree] at hstored
        cases hstored
      · obtain ⟨lock₁, hlock₁, _⟩ := hs.taken ht
        cases hlock'.symm.trans hlock₁
  | inProcess lock' =>
    have hopen : lock'.locked = false := hunlocked _ hlock'
    rcases hp with ⟨lock₁, hlock₁, hheld⟩ | ⟨t, deadline, backoff, ht⟩ | ⟨t, ht⟩
    · obtain rfl := some.inj (hlock'.symm.trans hlock₁)
      rw [hs.held hlock' hheld] at hopen
      cases hopen
    · obtain ⟨lock₁, hlock₁, _⟩ := hs.granted ht
      cases hlock'.symm.trans hlock₁
    · obtain ⟨lock₁, hlock₁, hlocked, _⟩ := hs.taken ht
      obtain rfl := inProcess.inj (some.inj (hlock'.symm.trans hlock₁))
      rw [hlocked] at hopen
      cases hopen

def Apart : Prop := ∀ o p, s.Rivals o p → ¬(s.Engaged o ∧ s.Engaged p)

theorem Apart.change (h : s.Apart) (hs : s.Sound) (hundisputed : s.Undisputed e)
    (hchange : Change s e s') : s'.Apart := by
  have hlt {o : ℕ} (ho : s.Engaged o ∨ s.entering e = some o) : o < s.locks.length := by
    rcases ho with ho | ho
    · exact ho.lt hs
    · rcases entering_cases ho with ⟨lock, hlock, _⟩ | ⟨lock, hlock⟩
      · exact (List.getElem?_eq_some_iff.mp hlock).1
      · exact (List.getElem?_eq_some_iff.mp hlock).1
  intro o p hr ⟨ho, hp⟩
  have ho := engaged_change hs hchange ho
  have hp := engaged_change hs hchange hp
  have hr := hr.before hchange (hlt ho) (hlt hp)
  rcases ho with ho | ho <;> rcases hp with hp | hp
  · exact h o p hr ⟨ho, hp⟩
  · exact not_engaged_of_entering hs hp (hundisputed p hp) hr.symm ho
  · exact not_engaged_of_entering hs ho (hundisputed o ho) hr hp
  · exact hr.1 (some.inj (ho.symm.trans hp))

theorem Apart.exclusive (h : s.Apart) : s.Exclusive :=
  fun o p hr hheld => h o p hr ⟨.inl hheld.1, .inl hheld.2⟩

theorem Sound.start : ({} : LockSystem).Sound := by
  constructor <;> simp

theorem Apart.start : ({} : LockSystem).Apart := by
  rintro o p ⟨_, lock, hlock, _⟩
  simp at hlock

theorem Sound.guarded (hs : s.Sound) (e : Step) : s.Guarded e where
  notHeld := by
    rintro o lock rfl ho hheld
    cases lock with
    | redis lock => simp_all [next, release, isHeld]
    | inProcess lock => simp_all [next, release, isHeld]
  others := secured_change hs (change_next s e)
  secured := Held.secured hs

def passedOn : List Step :=
  [.createLock "a".toList true, .createLock "a".toList true, .acquire 0 0 0, .setNx 0,
    .acquireResumes 0 0 0, .acquire 1 1 0, .setNx 1, .acquireResumes 1 0 0, .release 0, .eval 0,
    .releaseResumes 0, .acquireResumes 1 0 0, .setNx 1, .acquireResumes 1 1 1]

def twoInProcess : List Step :=
  [.createLock "a".toList false, .createLock "a".toList false, .acquire 0 0 0, .takeLock 0,
    .acquireResumes 0 0 0, .acquire 1 0 0, .takeLock 1, .acquireResumes 1 0 0]

-- On Redis, too, both are held while a release waits for the answer to its script.
example : (([.createLock "a".toList true, .createLock "a".toList true, .acquire 0 0 0, .setNx 0,
    .acquireResumes 0 0 0, .release 0, .eval 0, .acquire 1 0 0, .setNx 1,
    .acquireResumes 1 0 0] : List Step).foldl next {}).locks.map DistributedLock.isHeld =
      [true, true] := by decide +kernel

end LockSystem

end Agent33.Scaling
