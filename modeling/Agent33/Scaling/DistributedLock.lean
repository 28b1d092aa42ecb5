import Agent33.Library.Dict
import Agent33.Library.History
import Mathlib.Algebra.Order.Ring.Unbundled.Rat

/-!
# Locks by name

`create_lock` makes a lock on a Redis key, or one on an `asyncio.Lock` of its own. The calls
of any number of such objects interleave at their awaits. Redis sets a key that is not there
and deletes a key that has a given value, each in one step; keys do not expire.
-/

namespace Agent33.Scaling

open Library

/-- The token of an acquisition, from `uuid4`: the number of the call that draws it. -/
abbrev Token := ℕ

structure RedisDistributedLock where
  name : Text
  token : Option Token := none

structure InProcessLock where
  name : Text
  locked : Bool := false
  held : Bool := false

inductive DistributedLock
  | redis (lock : RedisDistributedLock)
  | inProcess (lock : InProcessLock)

def redisLockPrefix : Text := "agent33:lock:".toList

def RedisDistributedLock.key (lock : RedisDistributedLock) : Text := redisLockPrefix ++ lock.name

def createLock (name : Text) (redis : Bool) : DistributedLock :=
  if redis then .redis { name } else .inProcess { name }

namespace DistributedLock

def lockName : DistributedLock → Text
  | .redis lock => lock.name
  | .inProcess lock => lock.name

def isHeld : DistributedLock → Bool
  | .redis lock => lock.token.isSome
  | .inProcess lock => lock.held

/-- Whether the `asyncio.Lock` of the object is locked. -/
def isLocked : DistributedLock → Bool
  | .redis _ => false
  | .inProcess lock => lock.locked

def onRedis : DistributedLock → Bool
  | .redis _ => true
  | .inProcess _ => false

end DistributedLock

/-- Where an `acquire` stands. -/
inductive AcquirePhase
  | setting (deadline backoff : ℚ)
  | answered (deadline backoff : ℚ) (acquired : Bool)
  | sleeping (deadline backoff seconds : ℚ)
  | locking (deadline : ℚ)
  | locked
  | returned (acquired : Bool)

structure Acquire where
  lock : ℕ
  phase : AcquirePhase

/-- Where a `release` stands. -/
inductive ReleasePhase
  | evaluating (token : Token)
  | evaluated (result : Bool)
  | returned (released : Bool)
  deriving DecidableEq

structure Release where
  lock : ℕ
  phase : ReleasePhase
  deriving DecidableEq

structure LockSystem where
  locks : List DistributedLock := []
  store : Dict Text Token := Dict.empty
  acquires : List Acquire := []
  releases : List Release := []

namespace LockSystem

variable (s : LockSystem)

def setLock (o : ℕ) (lock : DistributedLock) : LockSystem :=
  { s with locks := s.locks.set o lock }

def acquireGoes (t : Token) (o : ℕ) (phase : AcquirePhase) : LockSystem :=
  { s with acquires := s.acquires.set t ⟨o, phase⟩ }

def releaseGoes (n : ℕ) (o : ℕ) (phase : ReleasePhase) : LockSystem :=
  { s with releases := s.releases.set n ⟨o, phase⟩ }

/-- `acquire` up to its first await. -/
def acquire (o : ℕ) (timeoutSeconds now : ℚ) : LockSystem :=
  match s.locks[o]? with
  | none => s
  | some (.redis _) =>
    { s with acquires := s.acquires ++ [⟨o, .setting (now + timeoutSeconds) (1 / 20)⟩] }
  | some (.inProcess lock) =>
    if timeoutSeconds ≤ 0 then
      if lock.locked then { s with acquires := s.acquires ++ [⟨o, .returned false⟩] }
      else { s with acquires := s.acquires ++ [⟨o, .locking (now + 1 / 100)⟩] }
    else { s with acquires := s.acquires ++ [⟨o, .locking (now + timeoutSeconds)⟩] }

/-- `SET key token NX`. -/
def setNx (t : Token) : LockSystem :=
  match s.acquires[t]? with
  | some ⟨o, .setting deadline backoff⟩ =>
    match s.locks[o]? with
    | some (.redis lock) =>
      if (s.store.get? lock.key).isSome then s.acquireGoes t o (.answered deadline backoff false)
      else { s.acquireGoes t o (.answered deadline backoff true) with
        store := s.store.set lock.key t }
    | _ => s
  | _ => s

/-- `acquire` after an await; `now` and `later` are two readings of the clock. -/
def acquireResumes (t : Token) (now later : ℚ) : LockSystem :=
  match s.acquires[t]? with
  | some ⟨o, .answered deadline backoff acquired⟩ =>
    match s.locks[o]? with
    | some (.redis lock) =>
      if acquired then
        (s.setLock o (.redis { lock with token := some t })).acquireGoes t o (.returned true)
      else if deadline ≤ now then s.acquireGoes t o (.returned false)
      else s.acquireGoes t o (.sleeping deadline backoff (min backoff (deadline - later)))
    | _ => s
  | some ⟨o, .sleeping deadline backoff _⟩ =>
    s.acquireGoes t o (.setting deadline (min (backoff * 2) 1))
  | some ⟨o, .locked⟩ =>
    match s.locks[o]? with
    | some (.inProcess lock) =>
      (s.setLock o (.inProcess { lock with held := true })).acquireGoes t o (.returned true)
    | _ => s
  | _ => s

/-- The request or its answer is lost, or the wait for the `asyncio.Lock` times out. -/
def acquireRaises (t : Token) : LockSystem :=
  match s.acquires[t]? with
  | some ⟨o, .setting _ _⟩ => s.acquireGoes t o (.returned false)
  | some ⟨o, .answered _ _ _⟩ => s.acquireGoes t o (.returned false)
  | some ⟨o, .locking _⟩ => s.acquireGoes t o (.returned false)
  | _ => s

/-- The `asyncio.Lock` goes to a call that waits for it. -/
def takeLock (t : Token) : LockSystem :=
  match s.acquires[t]? with
  | some ⟨o, .locking _⟩ =>
    match s.locks[o]? with
    | some (.inProcess lock) =>
      if lock.locked then s
      else (s.setLock o (.inProcess { lock with locked := true })).acquireGoes t o .locked
    | _ => s
  | _ => s

/-- `release` up to its first await; in process it has none. An `asyncio.Lock` that is not
locked raises. -/
def release (o : ℕ) : LockSystem :=
  match s.locks[o]? with
  | none => s
  | some (.redis lock) =>
    match lock.token with
    | none => { s with releases := s.releases ++ [⟨o, .returned false⟩] }
    | some token => { s with releases := s.releases ++ [⟨o, .evaluating token⟩] }
  | some (.inProcess lock) =>
    if lock.held then
      { s.setLock o (.inProcess { lock with locked := false, held := false }) with
        releases := s.releases ++ [⟨o, .returned lock.locked⟩] }
    else { s with releases := s.releases ++ [⟨o, .returned false⟩] }

def eval (n : ℕ) : LockSystem :=
  match s.releases[n]? with
  | some ⟨o, .evaluating token⟩ =>
    match s.locks[o]? with
    | some (.redis lock) =>
      if s.store.get? lock.key = some token then
        { s.releaseGoes n o (.evaluated true) with store := s.store.erase lock.key }
      else s.releaseGoes n o (.evaluated false)
    | _ => s
  | _ => s

/-- `release` after its await. Its log line needs the token: it raises when an overlapping
release of the object has taken the token away. -/
def releaseResumes (n : ℕ) : LockSystem :=
  match s.releases[n]? with
  | some ⟨o, .evaluated result⟩ =>
    match s.locks[o]? with
    | some (.redis lock) =>
      (s.setLock o (.redis { lock with token := none })).releaseGoes n o
        (.returned (result && lock.token.isSome))
    | _ => s
  | _ => s

def releaseRaises (n : ℕ) : LockSystem :=
  match s.releases[n]? with
  | some ⟨_, .returned _⟩ => s
  | some ⟨o, _⟩ =>
    match s.locks[o]? with
    | some (.redis lock) =>
      (s.setLock o (.redis { lock with token := none })).releaseGoes n o (.returned false)
    | _ => s
  | none => s

end LockSystem

inductive Step
  | createLock (name : Text) (redis : Bool)
  | acquire (lock : ℕ) (timeoutSeconds now : ℚ)
  | setNx (call : Token)
  | acquireResumes (call : Token) (now later : ℚ)
  | acquireRaises (call : Token)
  | takeLock (call : Token)
  | release (lock : ℕ)
  | eval (call : ℕ)
  | releaseResumes (call : ℕ)
  | releaseRaises (call : ℕ)

variable (s : LockSystem)

def LockSystem.next : Step → LockSystem
  | .createLock name redis => { s with locks := s.locks ++ [createLock name redis] }
  | .acquire o timeoutSeconds now => s.acquire o timeoutSeconds now
  | .setNx t => s.setNx t
  | .acquireResumes t now later => s.acquireResumes t now later
  | .acquireRaises t => s.acquireRaises t
  | .takeLock t => s.takeLock t
  | .release o => s.release o
  | .eval n => s.eval n
  | .releaseResumes n => s.releaseResumes n
  | .releaseRaises n => s.releaseRaises n

def LockSystem.caller : Step → Option ℕ
  | .createLock _ _ => none
  | .acquire o _ _ | .release o => some o
  | .setNx t | .acquireResumes t _ _ | .acquireRaises t | .takeLock t =>
    (s.acquires[t]?).map Acquire.lock
  | .eval n | .releaseResumes n | .releaseRaises n => (s.releases[n]?).map Release.lock

def AcquirePhase.Waits : AcquirePhase → Prop
  | .answered _ _ acquired | .returned acquired => acquired = false
  | .locked => False
  | _ => True

inductive Change (s : LockSystem) : Step → LockSystem → Prop
  | refused (e : Step) : Change s e s
  | created (name : Text) (redis : Bool) :
    Change s (.createLock name redis) { s with locks := s.locks ++ [createLock name redis] }
  | called {e : Step} {o : ℕ} {phase : AcquirePhase} (he : s.caller e = some o)
    (hphase : phase.Waits) : Change s e { s with acquires := s.acquires ++ [⟨o, phase⟩] }
  | waits {e : Step} {t : Token} {o : ℕ} {phase phase' : AcquirePhase} (he : s.caller e = some o)
    (ht : s.acquires[t]? = some ⟨o, phase⟩) (hphase : phase ≠ .returned true)
    (hphase' : phase'.Waits) : Change s e (s.acquireGoes t o phase')
  | granted {t : Token} {o : ℕ} {lock : RedisDistributedLock} {deadline backoff : ℚ}
    (ht : s.acquires[t]? = some ⟨o, .setting deadline backoff⟩)
    (ho : s.locks[o]? = some (.redis lock)) (hfree : s.store.get? lock.key = none) :
    Change s (.setNx t) { s.acquireGoes t o (.answered deadline backoff true) with
      store := s.store.set lock.key t }
  | acquired {e : Step} {t : Token} {o : ℕ} {lock : RedisDistributedLock} {deadline backoff : ℚ}
    (he : s.caller e = some o) (ht : s.acquires[t]? = some ⟨o, .answered deadline backoff true⟩)
    (ho : s.locks[o]? = some (.redis lock)) : Change s e
      ((s.setLock o (.redis { lock with token := some t })).acquireGoes t o (.returned true))
  | taken {t : Token} {o : ℕ} {lock : InProcessLock} {deadline : ℚ}
    (ht : s.acquires[t]? = some ⟨o, .locking deadline⟩)
    (ho : s.locks[o]? = some (.inProcess lock)) (hfree : lock.locked = false) :
    Change s (.takeLock t)
      ((s.setLock o (.inProcess { lock with locked := true })).acquireGoes t o .locked)
  | held {e : Step} {t : Token} {o : ℕ} {lock : InProcessLock} (he : s.caller e = some o)
    (ht : s.acquires[t]? = some ⟨o, .locked⟩) (ho : s.locks[o]? = some (.inProcess lock)) :
    Change s e
      ((s.setLock o (.inProcess { lock with held := true })).acquireGoes t o (.returned true))
  | notHeld {e : Step} {o : ℕ} (he : s.caller e = some o) :
    Change s e { s with releases := s.releases ++ [⟨o, .returned false⟩] }
  | unlocked {e : Step} {o : ℕ} {lock : InProcessLock} (he : s.caller e = some o)
    (ho : s.locks[o]? = some (.inProcess lock)) (hheld : lock.held = true) : Change s e
      { s.setLock o (.inProcess { lock with locked := false, held := false }) with
        releases := s.releases ++ [⟨o, .returned lock.locked⟩] }
  | releasing {e : Step} {o : ℕ} {lock : RedisDistributedLock} {t : Token}
    (he : s.caller e = some o) (ho : s.locks[o]? = some (.redis lock))
    (htoken : lock.token = some t) :
    Change s e { s with releases := s.releases ++ [⟨o, .evaluating t⟩] }
  | deleted {e : Step} {n o : ℕ} {lock : RedisDistributedLock} {t : Token}
    (he : s.caller e = some o) (hn : s.releases[n]? = some ⟨o, .evaluating t⟩)
    (ho : s.locks[o]? = some (.redis lock)) (hstored : s.store.get? lock.key = some t) :
    Change s e { s.releaseGoes n o (.evaluated true) with store := s.store.erase lock.key }
  | mismatch {e : Step} {n o : ℕ} {t : Token} (he : s.caller e = some o)
    (hn : s.releases[n]? = some ⟨o, .evaluating t⟩) :
    Change s e (s.releaseGoes n o (.evaluated false))
  | released {e : Step} {n o : ℕ} {lock : RedisDistributedLock} {phase : ReleasePhase}
    (result : Bool) (he : s.caller e = some o) (hn : s.releases[n]? = some ⟨o, phase⟩)
    (ho : s.locks[o]? = some (.redis lock)) : Change s e
      ((s.setLock o (.redis { lock with token := none })).releaseGoes n o (.returned result))

open LockSystem

theorem change_acquire (o : ℕ) (timeoutSeconds now : ℚ) :
    Change s (.acquire o timeoutSeconds now) (s.acquire o timeoutSeconds now) := by
  rw [acquire]
  cases ho : s.locks[o]? with
  | none => exact .refused _
  | some lock =>
    cases lock with
    | redis lock => exact .called rfl trivial
    | inProcess lock =>
      simp only
      split_ifs
      · exact .called rfl rfl
      · exact .called rfl trivial
      · exact .called rfl trivial

theorem change_setNx (t : Token) : Change s (.setNx t) (s.setNx t) := by
  rw [setNx]
  split
  case h_2 => exact .refused _
  case h_1 o deadline backoff ht =>
    split
    case h_2 => exact .refused _
    case h_1 lock ho =>
      split_ifs with hstored
      · exact .waits (by simp [caller, ht]) ht (by simp) rfl
      · exact .granted ht ho (by simpa using hstored)

theorem change_acquireResumes (t : Token) (now later : ℚ) :
    Change s (.acquireResumes t now later) (s.acquireResumes t now later) := by
  have he {o : ℕ} {phase : AcquirePhase} (ht : s.acquires[t]? = some ⟨o, phase⟩) :
      s.caller (.acquireResumes t now later) = some o := by simp [caller, ht]
  rw [acquireResumes]
  split
  case h_4 => exact .refused _
  case h_1 o deadline backoff acquired ht =>
    split
    case h_2 => exact .refused _
    case h_1 lock ho =>
      split_ifs with hacquired
      · subst hacquired
        exact .acquired (he ht) ht ho
      · exact .waits (he ht) ht (by simp) rfl
      · exact .waits (he ht) ht (by simp) trivial
  case h_2 o deadline backoff seconds ht => exact .waits (he ht) ht (by simp) trivial
  case h_3 o ht =>
    split
    case h_2 => exact .refused _
    case h_1 lock ho => exact .held (he ht) ht ho

theorem change_acquireRaises (t : Token) : Change s (.acquireRaises t) (s.acquireRaises t) := by
  have he {o : ℕ} {phase : AcquirePhase} (ht : s.acquires[t]? = some ⟨o, phase⟩) :
      s.caller (.acquireRaises t) = some o := by simp [caller, ht]
  rw [acquireRaises]
  split
  case h_4 => exact .refused _
  case h_1 o deadline backoff ht => exact .waits (he ht) ht (by simp) rfl
  case h_2 o deadline backoff acquired ht => exact .waits (he ht) ht (by simp) rfl
  case h_3 o deadline ht => exact .waits (he ht) ht (by simp) rfl

theorem change_takeLock (t : Token) : Change s (.takeLock t) (s.takeLock t) := by
  rw [takeLock]
  split
  case h_2 => exact .refused _
  case h_1 o deadline ht =>
    split
    case h_2 => exact .refused _
    case h_1 lock ho =>
      split_ifs with hlocked
      · exact .refused _
      · exact .taken ht ho (by simpa using hlocked)

theorem change_release (o : ℕ) : Change s (.release o) (s.release o) := by
  rw [release]
  split
  case h_1 => exact .refused _
  case h_2 lock ho =>
    split
    case h_1 => exact .notHeld rfl
    case h_2 token htoken => exact .releasing rfl ho htoken
  case h_3 lock ho =>
    split_ifs with hheld
    · exact .unlocked rfl ho hheld
    · exact .notHeld rfl

theorem change_eval (n : ℕ) : Change s (.eval n) (s.eval n) := by
  rw [eval]
  split
  case h_2 => exact .refused _
  case h_1 o token hn =>
    have he : s.caller (.eval n) = some o := by simp [caller, hn]
    split
    case h_2 => exact .refused _
    case h_1 lock ho =>
      split_ifs with hstored
      · exact .deleted he hn ho hstored
      · exact .mismatch he hn

theorem change_releaseResumes (n : ℕ) : Change s (.releaseResumes n) (s.releaseResumes n) := by
  rw [releaseResumes]
  split
  case h_2 => exact .refused _
  case h_1 o result hn =>
    split
    case h_2 => exact .refused _
    case h_1 lock ho => exact .released _ (by simp [caller, hn]) hn ho

theorem change_releaseRaises (n : ℕ) : Change s (.releaseRaises n) (s.releaseRaises n) := by
  rw [releaseRaises]
  split
  case h_1 => exact .refused _
  case h_3 => exact .refused _
  case h_2 o phase _ hn =>
    split
    case h_2 => exact .refused _
    case h_1 lock ho => exact .released _ (by simp [caller, hn]) hn ho

theorem change_next (e : Step) : Change s e (s.next e) := by
  cases e with
  | createLock name redis => exact .created name redis
  | acquire o timeoutSeconds now => exact change_acquire s o timeoutSeconds now
  | setNx t => exact change_setNx s t
  | acquireResumes t now later => exact change_acquireResumes s t now later
  | acquireRaises t => exact change_acquireRaises s t
  | takeLock t => exact change_takeLock s t
  | release o => exact change_release s o
  | eval n => exact change_eval s n
  | releaseResumes n => exact change_releaseResumes s n
  | releaseRaises n => exact change_releaseRaises s n

end Agent33.Scaling
