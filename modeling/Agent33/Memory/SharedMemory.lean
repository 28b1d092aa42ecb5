import Agent33.Library.Dict
import Agent33.Library.Glob

/-!
# Shared memory namespaces

Namespaces of tenants in one key-value store: the keys of all of them in one map, under
the names of the tenant and the namespace.
-/

namespace Agent33.Memory

open Library

structure StoredValue where
  value : Text
  expires : Bool

abbrev Redis := Dict Text StoredValue

def sharedMemoryPrefix : Text := "agent33:sharedmem:".toList

structure SharedMemoryNamespace where
  tenantId : Text
  name : Text
  deriving DecidableEq

inductive SharedMemoryCall
  | read (key : Text)
  | write (key value : Text) (ttlSeconds : Option Int)
  | delete (key : Text)
  | listKeys (start : Text)
  /-- The time to live of a key is over. -/
  | expire (key : Text)

inductive SharedMemoryResult
  | value (value : Option Text)
  | done
  /-- The server refuses the time to live. -/
  | refused
  | keys (keys : List Text)
  deriving DecidableEq

namespace SharedMemoryNamespace

variable (ns : SharedMemoryNamespace)

def base : Text := sharedMemoryPrefix ++ ns.tenantId ++ ['/'] ++ ns.name ++ ['/']

def fullKey (key : Text) : Text := ns.base ++ key

def scanPattern (start : Text) : Text := ns.base ++ start ++ ['*']

def listKeys (redis : Redis) (start : Text) : List Text :=
  (redis.keys.filter (KeyPattern.isMatch (ns.scanPattern start))).map (·.drop ns.base.length)

/-- `redact` is `redact_secrets`. -/
def call (redact : Text → Text) (redis : Redis) : SharedMemoryCall → SharedMemoryResult × Redis
  | .read key => (.value ((redis.get? (ns.fullKey key)).map StoredValue.value), redis)
  | .write key value none =>
    (.done, redis.set (ns.fullKey key) { value := redact value, expires := false })
  | .write key value (some ttl) =>
    if ttl ≤ 0 then (.refused, redis)
    else (.done, redis.set (ns.fullKey key) { value := redact value, expires := true })
  | .delete key => (.done, redis.erase (ns.fullKey key))
  | .listKeys start => (.keys (ns.listKeys redis start), redis)
  | .expire key =>
    if (redis.get? (ns.fullKey key)).any StoredValue.expires then
      (.done, redis.erase (ns.fullKey key))
    else (.done, redis)

end SharedMemoryNamespace

def sharedMemoryRun (redact : Text → Text) :
    Redis → List (SharedMemoryNamespace × SharedMemoryCall) →
      List (SharedMemoryNamespace × SharedMemoryResult)
  | _, [] => []
  | redis, (ns, call) :: calls =>
    let (result, redis) := ns.call redact redis call
    (ns, result) :: sharedMemoryRun redact redis calls

end Agent33.Memory

/-!
## Isolation of shared memory namespaces

A namespace behaves as a map of its own when the keys of no other one lie below it, and no
name is taken for a pattern.
-/

namespace Agent33.Memory

open Library

def ownCall (redact : Text → Text) (own : Dict Text StoredValue) :
    SharedMemoryCall → SharedMemoryResult × Dict Text StoredValue
  | .read key => (.value ((own.get? key).map StoredValue.value), own)
  | .write key value none => (.done, own.set key { value := redact value, expires := false })
  | .write key value (some ttl) =>
    if ttl ≤ 0 then (.refused, own)
    else (.done, own.set key { value := redact value, expires := true })
  | .delete key => (.done, own.erase key)
  | .listKeys start => (.keys (own.keys.filter start.isPrefixOf), own)
  | .expire key =>
    if (own.get? key).any StoredValue.expires then (.done, own.erase key) else (.done, own)

def ownRun (redact : Text → Text) : Dict Text StoredValue → List SharedMemoryCall →
    List SharedMemoryResult
  | _, [] => []
  | own, call :: calls =>
    let (result, own) := ownCall redact own call
    result :: ownRun redact own calls

variable {α : Type}

def ofNamespace (ns : SharedMemoryNamespace) (xs : List (SharedMemoryNamespace × α)) : List α :=
  (xs.filter fun x => x.1 = ns).map Prod.snd

/-- Each namespace gets what it gets without the calls on the others, and that is what a map
of its own would give. -/
structure Isolated (redact : Text → Text)
    (calls : List (SharedMemoryNamespace × SharedMemoryCall)) : Prop where
  alone : ∀ ns, ofNamespace ns (sharedMemoryRun redact Dict.empty calls) =
    ofNamespace ns (sharedMemoryRun redact Dict.empty (calls.filter fun x => x.1 = ns))
  own : ∀ ns, ofNamespace ns (sharedMemoryRun redact Dict.empty calls) =
    ownRun redact Dict.empty (ofNamespace ns calls)

def Separate (calls : List (SharedMemoryNamespace × SharedMemoryCall)) : Prop :=
  ∀ x ∈ calls, ∀ y ∈ calls, x.1 ≠ y.1 → ¬ x.1.base <+: y.1.base

instance (calls : List (SharedMemoryNamespace × SharedMemoryCall)) : Decidable (Separate calls) :=
  inferInstanceAs (Decidable (∀ x ∈ calls, ∀ y ∈ calls, x.1 ≠ y.1 → ¬ x.1.base <+: y.1.base))

def Literally (ns : SharedMemoryNamespace) : SharedMemoryCall → Prop
  | .listKeys start => KeyPattern.Literal (ns.base ++ start)
  | _ => True

namespace SharedMemoryNamespace

variable (ns : SharedMemoryNamespace)

def window : Window Text Text where
  name? key := if ns.base <+: key then some (key.drop ns.base.length) else none
  injective {k k' j} hk hk' := by
    split_ifs at hk hk' with h h'
    obtain ⟨tail, rfl⟩ := h
    obtain ⟨tail', rfl⟩ := h'
    rw [List.drop_left] at hk hk'
    rw [Option.some.inj hk, Option.some.inj hk']

theorem window_fullKey (key : Text) : ns.window.name? (ns.fullKey key) = some key := by
  rw [window, fullKey]
  dsimp only
  rw [if_pos (List.prefix_append _ _), List.drop_left]

theorem window_eq_some (h : ns.window.name? key = some j) : key = ns.fullKey j := by
  rw [window] at h
  dsimp only at h
  split_ifs at h with hprefix
  obtain ⟨tail, rfl⟩ := hprefix
  rw [List.drop_left] at h
  rw [← Option.some.inj h, fullKey]

variable {ns}

theorem window_other {other : SharedMemoryNamespace} (h : ¬ ns.base <+: other.base)
    (h' : ¬ other.base <+: ns.base) (key : Text) :
    ns.window.name? (other.fullKey key) = none := by
  refine if_neg fun hprefix => ?_
  rcases List.prefix_or_prefix_of_prefix hprefix (List.prefix_append other.base key) with hp | hp
  · exact h hp
  · exact h' hp

theorem listKeys_eq (h : KeyPattern.Literal (ns.base ++ start)) (redis : Redis) :
    ns.listKeys redis start = (redis.view ns.window).keys.filter start.isPrefixOf := by
  rw [Dict.keys_view, listKeys]
  generalize redis.keys = keys
  induction keys with
  | nil => rfl
  | cons key keys ih =>
    have hmatch : KeyPattern.isMatch (ns.scanPattern start) key = true ↔
        ns.base ++ start <+: key := KeyPattern.isMatch_literal_star h key
    cases hname : ns.window.name? key with
    | none =>
      have hnot : ¬ ns.base ++ start <+: key := fun hp => by
        have : ns.base <+: key := (List.prefix_append _ _).trans hp
        rw [window] at hname
        dsimp only at hname
        rw [if_pos this] at hname
        cases hname
      rw [List.filter_cons_of_neg (by rwa [hmatch]), List.filterMap_cons_none hname, ih]
    | some j =>
      obtain rfl := ns.window_eq_some hname
      rw [fullKey, List.prefix_append_right_inj] at hmatch
      rw [List.filterMap_cons_some hname]
      by_cases hstart : start <+: j
      · rw [List.filter_cons_of_pos (by rwa [fullKey, hmatch]), List.map_cons, ih, fullKey,
          List.drop_left, List.filter_cons_of_pos (by simpa using hstart)]
      · rw [List.filter_cons_of_neg (by rwa [fullKey, hmatch]), ih,
          List.filter_cons_of_neg (by simpa using hstart)]

open SharedMemoryNamespace in
theorem call_own (redact : Text → Text) (redis : Redis) {call : SharedMemoryCall}
    (h : Literally ns call) :
    ((ns.call redact redis call).1, (ns.call redact redis call).2.view ns.window) =
      ownCall redact (redis.view ns.window) call := by
  have hwindow := ns.window_fullKey
  cases call with
  | read key => rw [call, ownCall, Dict.get?_view (hwindow key)]
  | write key value ttl =>
    cases ttl with
    | none => rw [call, ownCall, Dict.view_set (hwindow key)]
    | some ttl =>
      rw [call, ownCall]
      split_ifs
      · rfl
      · rw [Dict.view_set (hwindow key)]
  | delete key => rw [call, ownCall, Dict.view_erase (hwindow key)]
  | listKeys start => rw [call, ownCall, listKeys_eq h]
  | expire key =>
    rw [call, ownCall, Dict.get?_view (hwindow key)]
    split_ifs
    · rw [Dict.view_erase (hwindow key)]
    · rfl

theorem call_other (redact : Text → Text) (redis : Redis) {other : SharedMemoryNamespace}
    (h : ¬ ns.base <+: other.base) (h' : ¬ other.base <+: ns.base) (call : SharedMemoryCall) :
    (other.call redact redis call).2.view ns.window = redis.view ns.window := by
  have hnone := window_other h h'
  cases call with
  | read key => rfl
  | write key value ttl =>
    cases ttl with
    | none => exact Dict.view_set_none (hnone key) _
    | some ttl =>
      rw [SharedMemoryNamespace.call]
      split_ifs
      · rfl
      · exact Dict.view_set_none (hnone key) _
  | delete key => exact Dict.view_erase_none (hnone key)
  | listKeys start => rfl
  | expire key =>
    rw [SharedMemoryNamespace.call]
    split_ifs
    · exact Dict.view_erase_none (hnone key)
    · rfl

end SharedMemoryNamespace

theorem ofNamespace_cons_self {ns : SharedMemoryNamespace} (a : α)
    (xs : List (SharedMemoryNamespace × α)) :
    ofNamespace ns ((ns, a) :: xs) = a :: ofNamespace ns xs := by
  simp [ofNamespace]

theorem ofNamespace_cons_of_ne (h : other ≠ ns) (a : α)
    (xs : List (SharedMemoryNamespace × α)) :
    ofNamespace ns ((other, a) :: xs) = ofNamespace ns xs := by
  simp [ofNamespace, h]

variable {redact : Text → Text}
  {calls : List (SharedMemoryNamespace × SharedMemoryCall)}

theorem ofNamespace_sharedMemoryRun (redis : Redis)
    (hother : ∀ x ∈ calls, x.1 ≠ ns → ¬ ns.base <+: x.1.base ∧ ¬ x.1.base <+: ns.base)
    (hliteral : ∀ x ∈ calls, Literally x.1 x.2) :
    ofNamespace ns (sharedMemoryRun redact redis calls) =
      ownRun redact (redis.view ns.window) (ofNamespace ns calls) := by
  induction calls generalizing redis with
  | nil => rfl
  | cons x calls ih =>
    obtain ⟨other, call⟩ := x
    rw [List.forall_mem_cons] at hother hliteral
    rw [sharedMemoryRun]
    by_cases hns : other = ns
    · subst hns
      have hown := other.call_own redact redis hliteral.1
      rw [ofNamespace_cons_self, ofNamespace_cons_self, ownRun, ← hown, ih _ hother.2 hliteral.2]
    · obtain ⟨h, h'⟩ := hother.1 hns
      rw [ofNamespace_cons_of_ne hns, ofNamespace_cons_of_ne hns, ih _ hother.2 hliteral.2,
        SharedMemoryNamespace.call_other redact redis h h' call]

theorem map_fst_sharedMemoryRun (redis : Redis) :
    (sharedMemoryRun redact redis calls).map Prod.fst = calls.map Prod.fst := by
  induction calls generalizing redis with
  | nil => rfl
  | cons x calls ih => exact congrArg (x.1 :: ·) (ih _)

theorem ofNamespace_eq_nil (h : ns ∉ xs.map Prod.fst) : ofNamespace ns xs = [] := by
  rw [ofNamespace, List.map_eq_nil_iff, List.filter_eq_nil_iff]
  intro x hx hns
  exact h (List.mem_map.mpr ⟨x, hx, of_decide_eq_true hns⟩)

theorem own_of_separate (hseparate : Separate calls)
    (hliteral : ∀ x ∈ calls, Literally x.1 x.2) (ns : SharedMemoryNamespace) :
    ofNamespace ns (sharedMemoryRun redact Dict.empty calls) =
      ownRun redact Dict.empty (ofNamespace ns calls) := by
  by_cases hns : ns ∈ calls.map Prod.fst
  · obtain ⟨y, hy, rfl⟩ := List.mem_map.mp hns
    refine ofNamespace_sharedMemoryRun Dict.empty (fun x hx hne => ?_) hliteral
    exact ⟨hseparate y hy x hx (Ne.symm hne), hseparate x hx y hy hne⟩
  · rw [ofNamespace_eq_nil (by rwa [map_fst_sharedMemoryRun]), ofNamespace_eq_nil hns]
    rfl

/-- Where no namespace lies below another one and no pattern is passed for a name, the
namespaces are isolated. -/
theorem isolated_of_separate (redact : Text → Text)
    (calls : List (SharedMemoryNamespace × SharedMemoryCall)) (hseparate : Separate calls)
    (hliteral : ∀ x ∈ calls, Literally x.1 x.2) : Isolated redact calls := by
  refine ⟨fun ns => ?_, own_of_separate hseparate hliteral⟩
  have hsub : ∀ x ∈ calls.filter fun x => x.1 = ns, x ∈ calls :=
    fun x hx => List.mem_of_mem_filter hx
  rw [own_of_separate hseparate hliteral,
    own_of_separate (fun x hx y hy => hseparate x (hsub x hx) y (hsub y hy))
      fun x hx => hliteral x (hsub x hx)]
  simp [ofNamespace, List.filter_filter]

def plainCalls : List (SharedMemoryNamespace × SharedMemoryCall) :=
  let session : SharedMemoryNamespace := ⟨"acme".toList, "session/1/shared".toList⟩
  let agent : SharedMemoryNamespace := ⟨"umbra".toList, "agent/7".toList⟩
  [(session, .write "plan".toList "draft".toList none), (agent, .read "plan".toList),
    (session, .listKeys "pl".toList)]

theorem isolated_plainCalls : Isolated id plainCalls := by
  refine isolated_of_separate id plainCalls ?_ ?_
  · simp [Separate, plainCalls, SharedMemoryNamespace.base]
  · simp only [plainCalls, List.forall_mem_cons]
    exact ⟨trivial, trivial, show KeyPattern.Literal _ by decide +kernel,
      List.forall_mem_nil _⟩

def joinedCalls : List (SharedMemoryNamespace × SharedMemoryCall) :=
  [(⟨"acme/lab".toList, "global".toList⟩, .write "key".toList "secret".toList none),
    (⟨"acme".toList, "lab/global".toList⟩, .read "key".toList)]

theorem not_isolated_joinedCalls : ¬ Isolated id joinedCalls := by
  intro h
  have halone := h.alone ⟨"acme".toList, "lab/global".toList⟩
  revert halone
  decide +kernel

end Agent33.Memory
